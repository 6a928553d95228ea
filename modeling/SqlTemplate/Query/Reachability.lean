import SqlTemplate.Query.Basic

/-! Which tables a query needs. A table is needed if it is the anchor or joined without being
optional, if a clause has a column of it, or if the join of a needed table has one. A name is
marked before the names behind it, and a name without a table is an error. -/

namespace SqlTemplate.Query

/-- The names of the tables that own the columns of a segment and of its descendants. -/
def owners (s : Segment) : List String :=
  s.allColumns.map fun c => c.table.appliedName

/-- The tables of other names. -/
def without (name : String) (froms : List FromEntry) : List FromEntry :=
  froms.filter fun e => e.name != name

theorem length_without_lt {name : String} {froms : List FromEntry} {e : FromEntry}
    (h : froms.find? (fun e => e.name == name) = some e) :
    (without name froms).length < froms.length :=
  List.length_filter_lt_length_iff_exists.mpr
    ⟨e, List.mem_of_find?_eq_some h, by simpa using List.find?_some h⟩

/-- Mark the pending names and what they lead to; `froms` are the tables that are not marked. An
empty name refers to nothing. -/
def mark (froms : List FromEntry) (marked : List String) :
    List String → Except QueryFault (List String)
  | [] => .ok marked
  | name :: pending =>
    if name = "" ∨ name ∈ marked then mark froms marked pending
    else
      match _hfind : froms.find? fun e => e.name == name with
      | none => .error (.notFound name)
      | some e =>
        mark (without name froms) (name :: marked) (owners e.segment ++ pending)
termination_by pending => (froms.length, pending.length)
decreasing_by
  · exact Prod.Lex.right _ (by simp)
  · exact Prod.Lex.left _ _ (length_without_lt _hfind)

namespace QueryOf

variable {B : Type}

/-- The names that a query needs on their own account: of the anchor and of each join that is
not optional, and of the owners of the columns in its clauses. -/
def seeds (q : QueryOf B) (selects : Segment) : List String :=
  q.anchor.toList.map FromEntry.name ++
    (q.joins.filter fun e => !e.optional).map FromEntry.name ++
    [selects, q.touches, q.conditions, q.groupBys, q.orders].flatMap owners

/-- The names of the tables that a query needs. -/
def needed (q : QueryOf B) (selects : Segment) : Except QueryFault (List String) :=
  mark q.froms [] (q.seeds selects)

/-- The tables that the FROM clause names. Under DISTINCT an optional join that is not needed
is left out. -/
def rendered (q : QueryOf B) (needed : List String) : List FromEntry :=
  q.froms.filter fun e => !q.distinct || !e.optional || needed.contains e.name

end QueryOf

end SqlTemplate.Query
