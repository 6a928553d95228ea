import SqlTemplate.Query.Reachability
import SqlTemplate.Render.Segment

/-! Rendering queries. The clauses are rendered in the order of the text, so that the slots of
the arguments rise from left to right; nested queries render into the same session. -/

namespace SqlTemplate.Query

namespace QueryOf

variable {B : Type}

/-- The declared queries whose names are tables of the FROM clause, each with its text. -/
def renderCtes (froms : List FromEntry) :
    List (Cte (RenderM Output)) → RenderM (List Output)
  | [] => return []
  | cte :: rest => do
    if froms.any fun e => e.table.name == cte.name then
      let body ← within ("WITH " ++ cte.name) cte.body
      let others ← renderCtes froms rest
      if body.isEmpty then return others
      return (Output.ofString (cte.name ++ " AS (") ++ body ++ Output.ofString ")") :: others
    else renderCtes froms rest

/-- Put a text in front of output that is not empty. -/
def prepend (s : String) (o : Output) : Output :=
  if o.isEmpty then [] else Output.ofString s ++ o

/-- Render a query that selects `selects`, given how the nested queries render. -/
def compose (registry : Registry) (q : QueryOf B) (ctes : List (Cte (RenderM Output)))
    (unions : List (RenderM Output)) (selects : Segment) : RenderM Output := do
  if q.faults ≠ [] then fail (.badQuery q.faults)
  if q.anchor.isNone then fail (.badQuery [.noAnchor])
  let needed ← liftCause ((q.needed selects).mapError fun fault => .badQuery [fault])
  let froms := q.rendered needed
  let ctes ← renderCtes froms ctes
  let columns ← selects.render registry
  if columns.isEmpty then fail (.badQuery [.noColumns])
  let touches ← q.touches.render registry
  let tables ← froms.mapM fun e => e.segment.render registry
  let conditions ← q.conditions.render registry
  let groupBys ← q.groupBys.render registry
  let orders ← q.orders.render registry
  let clauses : List Output :=
    [ prepend "WITH " (.join ", " ctes),
      Output.ofString (if q.distinct then "SELECT DISTINCT " else "SELECT ") ++ columns ++
        prepend ", " touches,
      Output.ofString "FROM " ++ .join " " tables,
      conditions, groupBys, orders,
      if q.limit = 0 then [] else Output.ofString ("LIMIT " ++ Nat.repr q.limit),
      if q.offset = 0 then [] else Output.ofString ("OFFSET " ++ Nat.repr q.offset) ]
  let query := Output.join " " (clauses.filter fun clause => !clause.isEmpty)
  let unions ← unions.mapM id
  match unions.filter fun union => !union.isEmpty with
  | [] => return query
  | unions =>
    return query ++ Output.ofString " UNION (" ++ .join ") UNION (" unions ++ Output.ofString ")"

end QueryOf

mutual

/-- Render what is nested in a query. -/
def Builder.render (registry : Registry) : Builder → RenderM Output
  | .segment s => s.render registry
  | .query ⟨settings, own, ctes, anchor, joins, selects, touches, conditions, orders, groupBys,
      distinct, limit, offset, unions, faults⟩ =>
    let q : Query := ⟨settings, own, ctes, anchor, joins, selects, touches, conditions, orders,
      groupBys, distinct, limit, offset, unions, faults⟩
    q.compose registry (Builder.cteBodies registry ctes) (Builder.bodies registry unions) selects

def Builder.cteBodies (registry : Registry) : List (Cte Builder) → List (Cte (RenderM Output))
  | [] => []
  | ⟨name, body⟩ :: rest => ⟨name, body.render registry⟩ :: Builder.cteBodies registry rest

def Builder.bodies (registry : Registry) : List Builder → List (RenderM Output)
  | [] => []
  | b :: rest => b.render registry :: Builder.bodies registry rest

end

end SqlTemplate.Query
