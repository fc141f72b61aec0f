import Frond.Session.Basic

/-!
Everything that can be asked of a session, as data: edits, orders to forget derived work, and
reads. `Session.respond` answers a request and gives the session after it; a request that
fails leaves the session as it was.
-/

namespace Frond

inductive Request where
  | edit (change : Edit)
  | discard (derived : Derived)
  | expanded
  | segments
  | describe
  | render (style : Svg.Style) (palette : Palette)
  | frames (style : Svg.Style) (palette : Palette)

inductive Reply where
  | done
  /-- Whether a control that counts up or down has moved. -/
  | moved (moved : Bool)
  | text (text : String)
  | segments (segments : List (Segment Float))
  | frames (frames : Frames)

/-- The answer to an edit that was carried out: the counting controls say whether they moved. -/
def Edit.reply (stale : Option Derived) : Edit → Reply
  | increaseIterations | decreaseIterations | increaseStepLength | decreaseStepLength =>
    .moved stale.isSome
  | _ => .done

namespace Session

/-- The answer to a request, and the session after it. -/
def answer (session : Session) : Request → Except Failure (Reply × Session)
  | .edit change => do
    let edited ← session.plan.edit change
    let next ← session.edit change
    return (change.reply edited.stale, next)
  | .discard derived => .ok (.done, session.discard derived)
  | .expanded => do
    let (text, next) ← session.expanded
    return (.text text, next)
  | .segments => do
    let (segments, next) ← session.drawn
    return (.segments segments, next)
  | .describe => .ok (.text session.plan.grammar.describe, session)
  | .render style palette => do
    let (document, next) ← session.render style palette
    return (.text document, next)
  | .frames style palette => do
    let (frames, next) ← session.frames style palette
    return (.frames frames, next)

/-- Answers a request; on failure nothing changes. -/
def respond (session : Session) (request : Request) : Session × Except Failure Reply :=
  match session.answer request with
  | .ok (reply, next) => (next, .ok reply)
  | .error failure => (session, .error failure)

/-- Answers requests one after the other. -/
def run (session : Session) : List Request → Session × List (Except Failure Reply)
  | [] => (session, [])
  | request :: rest =>
    let (next, reply) := session.respond request
    let (last, replies) := next.run rest
    (last, reply :: replies)

end Session

end Frond
