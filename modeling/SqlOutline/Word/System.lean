import SqlOutline.Text.Case
import SqlOutline.Text.Search

namespace SqlOutline

/-- The names of the built-in functions. -/
def systemIdentifiers : List String := [
  "ABS", "ACOS", "APP_NAME", "ASCII", "ASIN", "ATAN", "ATN2", "AVG", "CAST", "CEILING", "CHAR",
  "CHARINDEX", "CHECKSUM", "CHOOSE", "CONCAT", "CONCAT_WS", "COS", "COT", "COUNT", "COUNT_BIG",
  "CUME_DIST", "DATALENGTH", "DATEADD", "DATEDIFF", "DATEFROMPARTS", "DATENAME", "DATEPART",
  "DAY", "DB_ID", "DB_NAME", "DEGREES", "DENSE_RANK", "DIFFERENCE", "EOMONTH", "ERROR_LINE",
  "ERROR_MESSAGE", "ERROR_NUMBER", "ERROR_PROCEDURE", "ERROR_SEVERITY", "ERROR_STATE", "EXP",
  "FIRST_VALUE", "FLOOR", "FORMAT", "GETDATE", "GETUTCDATE", "GROUPING", "HOST_NAME", "IIF",
  "ISDATE", "ISNULL", "ISNUMERIC", "JSON_QUERY", "JSON_VALUE", "LAG", "LAST_VALUE", "LEAD",
  "LEN", "LOG", "LOG10", "LOWER", "LTRIM", "MAX", "MIN", "MONTH", "NEWID", "NTILE", "OBJECT_ID",
  "OBJECT_NAME", "PARSE", "PATINDEX", "PERCENT_RANK", "PI", "POWER", "QUOTENAME", "RADIANS",
  "RAND", "RANK", "REPLACE", "REPLICATE", "REVERSE", "ROUND", "ROW_NUMBER", "RTRIM",
  "SCOPE_IDENTITY", "SIGN", "SIN", "SOUNDEX", "SPACE", "SQRT", "SQUARE", "STDEV", "STDEVP",
  "STR", "STRING_AGG", "STRING_SPLIT", "STUFF", "SUBSTRING", "SUM", "SUSER_NAME", "SUSER_SNAME",
  "SWITCHOFFSET", "SYSDATETIME", "SYSDATETIMEOFFSET", "SYSUTCDATETIME", "TAN", "TRANSLATE",
  "TRIM", "TRY_CAST", "TRY_PARSE", "UNICODE", "UPPER", "USER_ID", "USER_NAME", "VAR", "VARP",
  "YEAR"]

/-- The names of the variables that the server keeps. -/
def systemVariables : List String := [
  "@@CONNECTIONS", "@@CPU_BUSY", "@@CURSOR_ROWS", "@@DATEFIRST", "@@DBTS", "@@ERROR",
  "@@FETCH_STATUS", "@@IDENTITY", "@@IDLE", "@@IO_BUSY", "@@LANGID", "@@LANGUAGE",
  "@@LOCK_TIMEOUT", "@@MAX_CONNECTIONS", "@@MAX_PRECISION", "@@NESTLEVEL", "@@OPTIONS",
  "@@PACKET_ERRORS", "@@PACK_RECEIVED", "@@PACK_SENT", "@@PROCID", "@@REMSERVER", "@@ROWCOUNT",
  "@@SERVERNAME", "@@SERVICENAME", "@@SPID", "@@TEXTSIZE", "@@TIMETICKS", "@@TOTAL_ERRORS",
  "@@TOTAL_READ", "@@TOTAL_WRITE", "@@TRANCOUNT", "@@VERSION"]

def isSystemIdentifier (t : List Char) : Bool :=
  Text.search (Text.upper t) systemIdentifiers

def isSystemVariable (t : List Char) : Bool :=
  Text.search (Text.upper t) systemVariables

theorem rising_systemIdentifiers : Text.rising (systemIdentifiers.map String.toList) = true := by
  decide +kernel

theorem rising_systemVariables : Text.rising (systemVariables.map String.toList) = true := by
  decide +kernel

theorem isSystemIdentifier_iff {t : List Char} :
    isSystemIdentifier t = true ↔ ∃ w ∈ systemIdentifiers, Text.upper t = w.toList :=
  Text.search_iff (Text.pairwise_of_rising rising_systemIdentifiers) _

theorem isSystemVariable_iff {t : List Char} :
    isSystemVariable t = true ↔ ∃ w ∈ systemVariables, Text.upper t = w.toList :=
  Text.search_iff (Text.pairwise_of_rising rising_systemVariables) _

end SqlOutline
