import Mathlib.Data.List.Induction
import Mainframe.Session

/-
  Sessions of any length.

  A session is asked one thing after another. What it answers and what it holds
  are said here without running it: a source is answered by its outline, or by
  the reason why it has none, and the outline that is held is that of the source
  that was read last. Earlier sources, the ones that could not be read among
  them, have left nothing behind, and asking for the outline or for the language
  changes nothing.

  What is proved:
    1. `step_eq`: one request, asked of a session that holds anything.
    2. `after_start`: what is held after any requests.
    3. `getElem?_run`: a run answers each request in the session that the
       requests in front of it have left.
    4. `run_start`: the answers of a run, and what is held after each of them.
-/

namespace Mainframe

/-! ## Requests and their answers -/

/-- The source that a request asks to read. -/
def Request.source? : Request → Option String
  | read source => some source
  | outline | language => none

/-- The outline that has been read for the answer. -/
def Reply.outline? : Reply → Option Outline
  | outline o => some o
  | failure _ | held | language _ => none

namespace Session

/-- The answer to a request to read a source, whatever was asked before it. -/
def replyToSource : Language → String → Reply
  | .cobol, source => .outline (.cobol (Cobol.outline source))
  | .jcl, source =>
    match Jcl.outline source with
    | .ok deck => .outline (.jcl deck)
    | .error e => .failure e

/-- The answer to a request, while the outline is held. -/
def replyTo (l : Language) (held : Outline) : Request → Reply
  | .read source => replyToSource l source
  | .outline => @Reply.held held
  | .language => .language l

/-- What is held after a source has been read: its outline, or nothing if it has
none. -/
def heldOf (l : Language) (source : String) : Outline :=
  (replyToSource l source).outline?.getD (.empty l)

/-- The source that is read last among the requests. -/
def latest? (requests : List Request) : Option String :=
  (requests.filterMap Request.source?).getLast?

/-- What is held after the requests. -/
def heldAfter (l : Language) (requests : List Request) : Outline :=
  match latest? requests with
  | none => .empty l
  | some source => heldOf l source

/-- The session after the requests. -/
def after (s : Session) (requests : List Request) : Session :=
  requests.foldl (fun s request => (s.step request).2) s

/-! ## One request -/

/-- A source is answered and held as on its own; other requests leave the session
as it is. -/
theorem step_eq (s : Session) (request : Request) :
    s.step request =
      (replyTo s.language s.held request,
        { s with held := (request.source?.map (heldOf s.language)).getD s.held }) := by
  obtain ⟨l, o⟩ := s
  cases request with
  | read source =>
    cases l with
    | cobol => rfl
    | jcl =>
      simp only [step, Outline.ofSource, Request.source?, Option.map_some, Option.getD_some, heldOf,
        replyTo, replyToSource]
      cases Jcl.outline source <;> rfl
  | outline => cases l <;> rfl
  | language => cases l <;> rfl

/-! ## Any number of requests -/

theorem after_concat (s : Session) (requests : List Request) (request : Request) :
    after s (requests ++ [request]) = ((after s requests).step request).2 := by
  simp only [after, List.foldl_append, List.foldl_cons, List.foldl_nil]

theorem latest?_concat (requests : List Request) (request : Request) :
    latest? (requests ++ [request]) = request.source?.or (latest? requests) := by
  rw [latest?, List.filterMap_append, List.getLast?_append, latest?]
  cases request <;> rfl

/-- One more request replaces what is held if it asks to read a source. -/
theorem heldAfter_concat (l : Language) (requests : List Request) (request : Request) :
    heldAfter l (requests ++ [request]) =
      (request.source?.map (heldOf l)).getD (heldAfter l requests) := by
  simp only [heldAfter, latest?_concat]
  cases request.source? <;> rfl

theorem after_start (l : Language) (requests : List Request) :
    after (start l) requests = ⟨l, heldAfter l requests⟩ := by
  -- from the last request on, which alone decides what is held
  induction requests using List.reverseRecOn with
  | nil => rfl
  | append_singleton requests request ih =>
    rw [after_concat, ih, step_eq, heldAfter_concat]

theorem getElem?_run (s : Session) (requests : List Request) (i : Nat) :
    (run s requests)[i]? = requests[i]?.map (after s (requests.take i)).step := by
  induction requests generalizing s i with
  | nil => rfl
  | cons request requests ih =>
    cases i with
    | zero => rfl
    | succ i =>
      show (run (s.step request).2 requests)[i]? = _
      rw [ih]
      rfl

/-- In a session that starts with nothing read, every source is answered as on
its own, and after each request the outline of the source that was read last is
held, or the empty one if that source has none or none was read. To ask for the
outline or the language changes nothing; the outline that is given is the one
that is held. -/
theorem run_start (l : Language) (requests : List Request) :
    (∀ i : Nat, (run (start l) requests)[i]? =
      requests[i]?.map (fun request =>
        (replyTo l (heldAfter l (requests.take i)) request,
          ⟨l, heldAfter l (requests.take (i + 1))⟩))) ∧
    after (start l) (requests ++ [.outline]) = after (start l) requests ∧
    after (start l) (requests ++ [.language]) = after (start l) requests := by
  refine ⟨fun i => ?_, ?_, ?_⟩
  · rw [getElem?_run]
    cases hrequest : requests[i]? with
    | none => rfl
    | some request =>
      rw [Option.map_some, Option.map_some, after_start, step_eq, List.take_add_one, hrequest,
        Option.toList_some, heldAfter_concat]
  · rw [after_concat, step_eq]
    rfl
  · rw [after_concat, step_eq]
    rfl

/-- A deck that cannot be read is forgotten, and so is what was held before it. -/
example :
    run (start .jcl) [.read "//S EXEC PGM=P", .read "//J JOB CLASS=A", .outline] =
      [(.outline (.jcl ⟨none, [⟨"S", some "P", none, none, [], "//S EXEC PGM=P"⟩], [],
          ["No JOB card found"]⟩),
        ⟨.jcl, .jcl ⟨none, [⟨"S", some "P", none, none, [], "//S EXEC PGM=P"⟩], [],
          ["No JOB card found"]⟩⟩),
        (.failure .noExecSteps, ⟨.jcl, .jcl .empty⟩),
        (@Reply.held (.jcl .empty), ⟨.jcl, .jcl .empty⟩)] := by
  decide +kernel

end Session

end Mainframe
