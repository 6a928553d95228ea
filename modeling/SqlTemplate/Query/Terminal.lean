import SqlTemplate.Built
import SqlTemplate.Log
import SqlTemplate.Query.Composition

/-! Building a segment or a query in a session of its own, and what is logged of it. A query
logs its text when its settings say so, and the plain build logs its failure. -/

namespace SqlTemplate

/-- Render into a session and make a query of what it holds then. -/
def Built.ofRender (x : RenderM Output) (s : Session) : Except Error Built :=
  match x s with
  | .ok out s => .ok (.ofSession out.text s)
  | .error e _ => .error e

/-- Build a segment with the built-in functions. -/
def Segment.build (s : Segment) : Except Error Built :=
  Built.ofRender (s.render .standard) {}

namespace Query

/-- The result of building a query, with what is logged meanwhile. -/
structure Outcome where
  result : Except Error Built
  events : List Event

/-- Render a query that selects `selects` into a session. -/
def renderWith (q : Query) (registry : Registry) (selects : Segment) : RenderM Output :=
  q.compose registry (Builder.cteBodies registry q.ctes) (Builder.bodies registry q.unions) selects

/-- Render a query into a session. -/
def render (q : Query) (registry : Registry) : RenderM Output :=
  renderWith q registry q.selects

/-- The functions that a query calls. -/
def functions (q : Query) : Registry := q.registry.getD .standard

/-- The session that a query is built in. -/
def session (q : Query) : Session := .ofStyle q.settings.style

/-- The outcome with a record of a query that was built, if its settings ask for one. -/
def finish (q : Query) (result : Except Error Built) : Outcome where
  result := result
  events := match result with
    | .ok b => if q.settings.debug then [.built ((Logger.ofSettings q.settings).record b)] else []
    | .error _ => []

/-- Build a query. -/
def build (q : Query) : Outcome :=
  match Built.ofRender (render q (functions q)) (session q) with
  | .ok b => finish q (.ok b)
  | .error e => ⟨.error e, [.failed e.message]⟩

/-- Build a query with the given columns in place of the selected ones. -/
def buildSelect (q : Query) (columns : List Column) : Outcome :=
  finish q (Built.ofRender (renderWith q (functions q) (q.projection columns)) (session q))

/-- The text of a query that counts the rows of another. -/
def countText (out : Output) : Output :=
  Output.ofString "SELECT COUNT(1) FROM (" ++ out ++ Output.ofString ") list"

/-- Build a query that counts the rows; without columns those of the query are selected. -/
def buildCount (q : Query) (columns : List Column) : Outcome :=
  let selects := if columns.isEmpty then q.selects else q.projection columns
  finish q (Built.ofRender (countText <$> renderWith q (functions q) selects) (session q))

end Query

end SqlTemplate
