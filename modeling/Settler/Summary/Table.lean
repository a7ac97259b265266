import Settler.Json.Value

/-!
Messages to the chat webhook: a header and a table of two rows.
-/

namespace Settler

/-- The totals of one sweep. -/
structure Summary where
  insufficientFunds : Int
  totalDebt : Int
  totalPaid : Int
  deriving DecidableEq, Repr

/-- A header over a row of headings and a row of values. -/
structure Table where
  header : String
  headings : List String
  values : List String
  deriving DecidableEq, Repr

namespace Table

/-- A cell of the table. -/
def cell (s : String) : Json := .object [("type", .text "raw_text"), ("text", .text s)]

/-- The message: a header block and a table block. -/
def message (t : Table) : Json :=
  .object [("blocks", .list [
    .object [("type", .text "header"),
      ("text", .object [("type", .text "plain_text"), ("text", .text t.header), ("emoji", .bool true)])],
    .object [("type", .text "table"),
      ("column_settings", .list [.object [("is_wrapped", .bool true), ("align", .text "right")]]),
      ("rows", .list [.list (t.headings.map cell), .list (t.values.map cell)])]])]

/-- The table of a sweep's totals. -/
def ofSummary (s : Summary) : Table where
  header := "Total Debt Collection"
  headings := ["Total Paid", "Total Debt", "Total Insufficient Funds Count"]
  values := [toString s.totalPaid, toString s.totalDebt, toString s.insufficientFunds]

end Table

end Settler
