import SqlOutline.Text.Case

namespace SqlOutline

/-- The reserved words. AND, OR, LIKE, NOT, IS and IN are among them, though no lexeme spelled so is
of the keyword kind. -/
inductive Keyword where
  | add | all | alter | and | any | as | asc | authorization | backup | begin | between | break
  | browse | bulk | by | cascade | case | check | checkpoint | close | clustered | coalesce
  | collate | column | commit | compute | constraint | contains | containstable | continue
  | convert | create | cross | current | currentDate | currentTime | currentTimestamp
  | currentUser | cursor | database | dbcc | deallocate | declare | default | delete | deny
  | desc | disk | distinct | distributed | double | drop | dump | else | end | errlvl | escape
  | except | exec | execute | exists | exit | external | fetch | file | fillfactor | for
  | foreign | freetext | freetexttable | from | full | function | goto | grant | group | having
  | holdlock | identity | identityInsert | identitycol | if | in | index | inner | insert
  | intersect | into | is | join | key | kill | left | like | lineno | load | matched | merge
  | national | nocheck | nonclustered | not | null | nullif | of | off | offsets | on | «open»
  | opendatasource | openquery | openrowset | openxml | option | or | order | outer | output
  | over | percent | pivot | plan | precision | primary | print | proc | procedure | «public»
  | raiserror | read | readtext | reconfigure | references | replication | restore | restrict
  | return | revert | revoke | right | rollback | rowcount | rowguidcol | rule | save | schema
  | securityaudit | select | semantickeyphrasetable | semanticsimilaritydetailstable
  | semanticsimilaritytable | sessionUser | set | setuser | shutdown | some | statistics
  | systemUser | table | tablesample | textsize | then | to | top | tran | transaction | trigger
  | truncate | tryConvert | tsequal | union | unique | unpivot | update | updatetext | use | user
  | using | values | varying | view | waitfor | when | where | while | with | writetext
  deriving DecidableEq

/-- Every keyword once, in the order of declaration. -/
def keywords : List Keyword := [
  .add, .all, .alter, .and, .any, .as, .asc, .authorization, .backup, .begin, .between, .break,
  .browse, .bulk, .by, .cascade, .case, .check, .checkpoint, .close, .clustered, .coalesce,
  .collate, .column, .commit, .compute, .constraint, .contains, .containstable, .continue,
  .convert, .create, .cross, .current, .currentDate, .currentTime, .currentTimestamp,
  .currentUser, .cursor, .database, .dbcc, .deallocate, .declare, .default, .delete, .deny,
  .desc, .disk, .distinct, .distributed, .double, .drop, .dump, .else, .end, .errlvl, .escape,
  .except, .exec, .execute, .exists, .exit, .external, .fetch, .file, .fillfactor, .for,
  .foreign, .freetext, .freetexttable, .from, .full, .function, .goto, .grant, .group, .having,
  .holdlock, .identity, .identityInsert, .identitycol, .if, .in, .index, .inner, .insert,
  .intersect, .into, .is, .join, .key, .kill, .left, .like, .lineno, .load, .matched, .merge,
  .national, .nocheck, .nonclustered, .not, .null, .nullif, .of, .off, .offsets, .on, .open,
  .opendatasource, .openquery, .openrowset, .openxml, .option, .or, .order, .outer, .output,
  .over, .percent, .pivot, .plan, .precision, .primary, .print, .proc, .procedure, .public,
  .raiserror, .read, .readtext, .reconfigure, .references, .replication, .restore, .restrict,
  .return, .revert, .revoke, .right, .rollback, .rowcount, .rowguidcol, .rule, .save, .schema,
  .securityaudit, .select, .semantickeyphrasetable, .semanticsimilaritydetailstable,
  .semanticsimilaritytable, .sessionUser, .set, .setuser, .shutdown, .some, .statistics,
  .systemUser, .table, .tablesample, .textsize, .then, .to, .top, .tran, .transaction, .trigger,
  .truncate, .tryConvert, .tsequal, .union, .unique, .unpivot, .update, .updatetext, .use, .user,
  .using, .values, .varying, .view, .waitfor, .when, .where, .while, .with, .writetext]

namespace Keyword

def spelling : Keyword → String
  | .add => "ADD"
  | .all => "ALL"
  | .alter => "ALTER"
  | .and => "AND"
  | .any => "ANY"
  | .as => "AS"
  | .asc => "ASC"
  | .authorization => "AUTHORIZATION"
  | .backup => "BACKUP"
  | .begin => "BEGIN"
  | .between => "BETWEEN"
  | .break => "BREAK"
  | .browse => "BROWSE"
  | .bulk => "BULK"
  | .by => "BY"
  | .cascade => "CASCADE"
  | .case => "CASE"
  | .check => "CHECK"
  | .checkpoint => "CHECKPOINT"
  | .close => "CLOSE"
  | .clustered => "CLUSTERED"
  | .coalesce => "COALESCE"
  | .collate => "COLLATE"
  | .column => "COLUMN"
  | .commit => "COMMIT"
  | .compute => "COMPUTE"
  | .constraint => "CONSTRAINT"
  | .contains => "CONTAINS"
  | .containstable => "CONTAINSTABLE"
  | .continue => "CONTINUE"
  | .convert => "CONVERT"
  | .create => "CREATE"
  | .cross => "CROSS"
  | .current => "CURRENT"
  | .currentDate => "CURRENT_DATE"
  | .currentTime => "CURRENT_TIME"
  | .currentTimestamp => "CURRENT_TIMESTAMP"
  | .currentUser => "CURRENT_USER"
  | .cursor => "CURSOR"
  | .database => "DATABASE"
  | .dbcc => "DBCC"
  | .deallocate => "DEALLOCATE"
  | .declare => "DECLARE"
  | .default => "DEFAULT"
  | .delete => "DELETE"
  | .deny => "DENY"
  | .desc => "DESC"
  | .disk => "DISK"
  | .distinct => "DISTINCT"
  | .distributed => "DISTRIBUTED"
  | .double => "DOUBLE"
  | .drop => "DROP"
  | .dump => "DUMP"
  | .else => "ELSE"
  | .end => "END"
  | .errlvl => "ERRLVL"
  | .escape => "ESCAPE"
  | .except => "EXCEPT"
  | .exec => "EXEC"
  | .execute => "EXECUTE"
  | .exists => "EXISTS"
  | .exit => "EXIT"
  | .external => "EXTERNAL"
  | .fetch => "FETCH"
  | .file => "FILE"
  | .fillfactor => "FILLFACTOR"
  | .for => "FOR"
  | .foreign => "FOREIGN"
  | .freetext => "FREETEXT"
  | .freetexttable => "FREETEXTTABLE"
  | .from => "FROM"
  | .full => "FULL"
  | .function => "FUNCTION"
  | .goto => "GOTO"
  | .grant => "GRANT"
  | .group => "GROUP"
  | .having => "HAVING"
  | .holdlock => "HOLDLOCK"
  | .identity => "IDENTITY"
  | .identityInsert => "IDENTITY_INSERT"
  | .identitycol => "IDENTITYCOL"
  | .if => "IF"
  | .in => "IN"
  | .index => "INDEX"
  | .inner => "INNER"
  | .insert => "INSERT"
  | .intersect => "INTERSECT"
  | .into => "INTO"
  | .is => "IS"
  | .join => "JOIN"
  | .key => "KEY"
  | .kill => "KILL"
  | .left => "LEFT"
  | .like => "LIKE"
  | .lineno => "LINENO"
  | .load => "LOAD"
  | .matched => "MATCHED"
  | .merge => "MERGE"
  | .national => "NATIONAL"
  | .nocheck => "NOCHECK"
  | .nonclustered => "NONCLUSTERED"
  | .not => "NOT"
  | .null => "NULL"
  | .nullif => "NULLIF"
  | .of => "OF"
  | .off => "OFF"
  | .offsets => "OFFSETS"
  | .on => "ON"
  | .open => "OPEN"
  | .opendatasource => "OPENDATASOURCE"
  | .openquery => "OPENQUERY"
  | .openrowset => "OPENROWSET"
  | .openxml => "OPENXML"
  | .option => "OPTION"
  | .or => "OR"
  | .order => "ORDER"
  | .outer => "OUTER"
  | .output => "OUTPUT"
  | .over => "OVER"
  | .percent => "PERCENT"
  | .pivot => "PIVOT"
  | .plan => "PLAN"
  | .precision => "PRECISION"
  | .primary => "PRIMARY"
  | .print => "PRINT"
  | .proc => "PROC"
  | .procedure => "PROCEDURE"
  | .public => "PUBLIC"
  | .raiserror => "RAISERROR"
  | .read => "READ"
  | .readtext => "READTEXT"
  | .reconfigure => "RECONFIGURE"
  | .references => "REFERENCES"
  | .replication => "REPLICATION"
  | .restore => "RESTORE"
  | .restrict => "RESTRICT"
  | .return => "RETURN"
  | .revert => "REVERT"
  | .revoke => "REVOKE"
  | .right => "RIGHT"
  | .rollback => "ROLLBACK"
  | .rowcount => "ROWCOUNT"
  | .rowguidcol => "ROWGUIDCOL"
  | .rule => "RULE"
  | .save => "SAVE"
  | .schema => "SCHEMA"
  | .securityaudit => "SECURITYAUDIT"
  | .select => "SELECT"
  | .semantickeyphrasetable => "SEMANTICKEYPHRASETABLE"
  | .semanticsimilaritydetailstable => "SEMANTICSIMILARITYDETAILSTABLE"
  | .semanticsimilaritytable => "SEMANTICSIMILARITYTABLE"
  | .sessionUser => "SESSION_USER"
  | .set => "SET"
  | .setuser => "SETUSER"
  | .shutdown => "SHUTDOWN"
  | .some => "SOME"
  | .statistics => "STATISTICS"
  | .systemUser => "SYSTEM_USER"
  | .table => "TABLE"
  | .tablesample => "TABLESAMPLE"
  | .textsize => "TEXTSIZE"
  | .then => "THEN"
  | .to => "TO"
  | .top => "TOP"
  | .tran => "TRAN"
  | .transaction => "TRANSACTION"
  | .trigger => "TRIGGER"
  | .truncate => "TRUNCATE"
  | .tryConvert => "TRY_CONVERT"
  | .tsequal => "TSEQUAL"
  | .union => "UNION"
  | .unique => "UNIQUE"
  | .unpivot => "UNPIVOT"
  | .update => "UPDATE"
  | .updatetext => "UPDATETEXT"
  | .use => "USE"
  | .user => "USER"
  | .using => "USING"
  | .values => "VALUES"
  | .varying => "VARYING"
  | .view => "VIEW"
  | .waitfor => "WAITFOR"
  | .when => "WHEN"
  | .where => "WHERE"
  | .while => "WHILE"
  | .with => "WITH"
  | .writetext => "WRITETEXT"

/-- The spelling with one capital to a part: `TRY_CONVERT` is named `TryConvert`. -/
def name (k : Keyword) : List Char :=
  Text.capitalise k.spelling.toList

/-- Case does not count, for ASCII letters only. -/
def ofText? (t : List Char) : Option Keyword :=
  keywords.find? fun k => k.spelling.toList == Text.upper t

/-- The place of the keyword in `keywords`. -/
def rank (k : Keyword) : Nat :=
  k.ctorIdx

theorem getElem?_rank (k : Keyword) : keywords[k.rank]? = Option.some k := by
  cases k <;> rfl

theorem mem_keywords (k : Keyword) : k ∈ keywords :=
  List.mem_of_getElem? k.getElem?_rank

end Keyword

end SqlOutline
