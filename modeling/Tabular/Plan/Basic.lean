import Tabular.Expr.Render
import Tabular.Statement.Basic

/-!
# Query plans

A plan is a scan with steps on top of it.  A query sorts and limits whole rows before it projects
them, so that it can be sorted by any column.
-/

namespace Tabular

inductive Plan where
  | scan (table : String) (filter : Option Expr)
  | sort (input : Plan) (columns : List String) (direction : Direction)
  | limit (input : Plan) (count : UInt64)
  | project (input : Plan) (items : List SelectItem)
  deriving DecidableEq

namespace Plan

def source : Plan → String
  | scan table _ => table
  | sort input _ _ | limit input _ | project input _ => input.source

def sortIfAny (input : Plan) (columns : List String) (direction : Direction) : Plan :=
  if columns.isEmpty then input else sort input columns direction

def limitIfAny (input : Plan) : Option UInt64 → Plan
  | some count => limit input count
  | none => input

/-- The plan of a query: scan with the filter, sort, limit, project. -/
def ofSelect (query : Select) : Plan :=
  let scanned := scan query.source query.filter
  let sorted := scanned.sortIfAny query.orderBy query.direction
  project (sorted.limitIfAny query.limit) query.items

def render : Plan → String
  | scan table filter =>
      "TableScan " ++ table ++
        match filter with
        | some e => " WHERE " ++ e.render
        | none => ""
  | sort input columns direction =>
      "Sort [" ++ ", ".intercalate columns ++ "] " ++ direction.word ++ " <- " ++ input.render
  | limit input count => "Limit " ++ toString count.toNat ++ " <- " ++ input.render
  | project input items =>
      "Projection (" ++ toString items.length ++ " items) <- " ++ input.render

end Plan

end Tabular
