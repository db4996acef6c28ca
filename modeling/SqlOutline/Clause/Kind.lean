import SqlOutline.Word.Keyword

namespace SqlOutline

inductive ClauseKind where
  | with
  | select
  | into
  | from
  | where
  | groupBy
  | having
  | orderBy
  | option
  | for
  /-- The words between two queries. -/
  | setOperator
  | insert
  | values
  | defaultValues
  | output
  | execute
  | update
  | set
  | delete
  | merge
  | using
  | on
  /-- One branch of a MERGE. -/
  | when
  deriving DecidableEq

namespace ClauseKind

def spelling : ClauseKind → String
  | .with => "WITH"
  | .select => "SELECT"
  | .into => "INTO"
  | .from => "FROM"
  | .where => "WHERE"
  | .groupBy => "GROUP BY"
  | .having => "HAVING"
  | .orderBy => "ORDER BY"
  | .option => "OPTION"
  | .for => "FOR"
  | .setOperator => "SET OPERATOR"
  | .insert => "INSERT"
  | .values => "VALUES"
  | .defaultValues => "DEFAULT VALUES"
  | .output => "OUTPUT"
  | .execute => "EXECUTE"
  | .update => "UPDATE"
  | .set => "SET"
  | .delete => "DELETE"
  | .merge => "MERGE"
  | .using => "USING"
  | .on => "ON"
  | .when => "WHEN"

/-- The spelling in one word: `GROUP BY` is named `GroupBy`. -/
def name (k : ClauseKind) : List Char :=
  Text.capitalise k.spelling.toList

end ClauseKind

end SqlOutline
