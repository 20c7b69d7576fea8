import Mainframe.Outline

/-
  A session reads one source after another and holds the last outline.

  Reading a source gives the same result as reading it on its own, whatever has
  been read before. A source that cannot be read leaves the empty outline.
-/

namespace Mainframe

/-- A session for one language, with the outline that it holds. -/
structure Session where
  language : Language
  held : Outline
  deriving DecidableEq, Repr

/-- What can be asked of a session. -/
inductive Request where
  | read (source : String)
  | outline
  | language
  deriving DecidableEq, Repr

/-- What a session answers: the outline of a source that it was to read, or why
there is none; the outline that it holds; or its language. -/
inductive Reply where
  | outline (o : Outline)
  | failure (e : ReadError)
  | held {o : Outline}
  | language (l : Language)
  deriving DecidableEq, Repr

namespace Session

/-- A session in which nothing has been read. -/
def start (language : Language) : Session := ⟨language, .empty language⟩

/-- The answer to one request, and the session after it. -/
def step (s : Session) : Request → Reply × Session
  | .read source =>
    match Outline.ofSource s.language source with
    | .ok o => (.outline o, { s with held := o })
    | .error e => (.failure e, { s with held := .empty s.language })
  | .outline => (@Reply.held s.held, s)
  | .language => (.language s.language, s)

/-- The answers to requests in turn, each with the session after it. -/
def run (s : Session) : List Request → List (Reply × Session)
  | [] => []
  | request :: requests => s.step request :: run (s.step request).2 requests

end Session

end Mainframe
