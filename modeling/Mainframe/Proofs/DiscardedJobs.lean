import Mainframe.Proofs.ShapesApart

/-
  Jobs that are lost in reading.

  What stands in the place of the job is tried as the record of a job. If it is
  no such record, it may be null or an object, and then the outline has no job.
  An empty object is how an outline without a job is written. But an object with
  a field missing, repeated or of another kind is no record of a job either, and
  it is taken for an empty one: its members are lost, and there is no error.

  What is proved:
    1. `Job.ofJson?_object_iff`: the members that make up the record of a job.
    2. `job_kept_iff`: the job of an outline is missing if and only if null
       stands in its place, or an object that is no record of a job; and no job
       is lost if and only if the object, unless it is empty, is such a record.
    3. `card_discarded`: a job without its card that is lost.
-/

namespace Mainframe

namespace Json

/-- The members give the text for the key, or none, in which case the value may
be null. -/
def GivesText (key : String) (members : List (String × Json)) : Option String → Prop
  | some s => named key members = [.string s]
  | none => named key members = [] ∨ named key members = [.null]

theorem required_string?_iff {key s : String} {members : List (String × Json)} :
    (∃ slot, atMostOnce key members = some slot ∧ required string? slot = some s) ↔
      GivesText key members (some s) := by
  rw [atMostOnce, GivesText]
  rcases named key members with _ | ⟨value, _ | ⟨second, values⟩⟩
  case nil => simp [required]
  case cons.nil => cases value <;> simp [required, string?]
  case cons.cons => simp

theorem optional_string?_iff {key : String} {o : Option String}
    {members : List (String × Json)} :
    (∃ slot, atMostOnce key members = some slot ∧ optional string? slot = some o) ↔
      GivesText key members o := by
  cases o <;> rw [atMostOnce, GivesText] <;>
    rcases named key members with _ | ⟨value, _ | ⟨second, values⟩⟩
  case none.nil | some.nil => simp [optional]
  case none.cons.nil | some.cons.nil => cases value <;> simp [optional, string?]
  case none.cons.cons | some.cons.cons => simp

end Json

namespace Jcl

open Json

/-! ## Records of jobs -/

/-- The members make up the record of the job. Other members may stand among
them. -/
structure IsRecordOf (members : List (String × Json)) (job : Job) : Prop where
  name : GivesText "name" members (some job.name)
  jobClass : GivesText "class" members job.jobClass
  messageClass : GivesText "msgclass" members job.messageClass
  notify : GivesText "notify" members job.notify
  raw : GivesText "raw" members (some job.raw)

theorem Job.ofJson?_object_iff {members : List (String × Json)} {job : Job} :
    Job.ofJson? (.object members) = some job ↔ IsRecordOf members job := by
  simp only [Job.ofJson?, slots?, Bool.false_and, Bool.false_eq_true, if_false, List.mapM_cons,
    List.mapM_nil, Option.bind_eq_bind, Option.pure_def, Option.bind_assoc, Option.bind_some,
    Option.bind_eq_some_iff, Option.some.injEq]
  constructor
  · rintro ⟨name, hname, jobClass, hclass, messageClass, hmessage, notify, hnotify, raw, hraw,
      _, hname', _, hclass', _, hmessage', _, hnotify', _, hraw', rfl⟩
    constructor
    case name => exact required_string?_iff.1 ⟨name, hname, hname'⟩
    case jobClass => exact optional_string?_iff.1 ⟨jobClass, hclass, hclass'⟩
    case messageClass => exact optional_string?_iff.1 ⟨messageClass, hmessage, hmessage'⟩
    case notify => exact optional_string?_iff.1 ⟨notify, hnotify, hnotify'⟩
    case raw => exact required_string?_iff.1 ⟨raw, hraw, hraw'⟩
  · intro h
    obtain ⟨name, hname, hname'⟩ := required_string?_iff.2 h.name
    obtain ⟨jobClass, hclass, hclass'⟩ := optional_string?_iff.2 h.jobClass
    obtain ⟨messageClass, hmessage, hmessage'⟩ := optional_string?_iff.2 h.messageClass
    obtain ⟨notify, hnotify, hnotify'⟩ := optional_string?_iff.2 h.notify
    obtain ⟨raw, hraw, hraw'⟩ := required_string?_iff.2 h.raw
    exact ⟨name, hname, jobClass, hclass, messageClass, hmessage, notify, hnotify, raw, hraw,
      _, hname', _, hclass', _, hmessage', _, hnotify', _, hraw', rfl⟩

/-! ## The job of an outline -/

/-- The second value stands in the place of the job in the first one: as the
only member for it, or as the first of four items. -/
inductive HoldsJob : Json → Json → Prop where
  | member {members : List (String × Json)} {job : Json} (h : named "job" members = [job]) :
      HoldsJob (.object members) job
  | item {job : Json} {others : List Json} (h : others.length = 3) :
      HoldsJob (.array (job :: others)) job

/-- No job is lost: what has members is kept, and only what has none is no
job. -/
structure KeepsJob (value : Json) (job : Option Job) : Prop where
  kept : ∀ members, value = .object members → members ≠ [] → job ≠ none
  missing : job = none → value = .null ∨ value = .object [] ∨ value = .array []

theorem holdsJob_of_slots? {value job : Json} {slots : List (Option Json)}
    (h : slots? true outlineFields value = some (some job :: slots)) : HoldsJob value job := by
  cases value with
  | object members =>
    have hslot : atMostOnce "job" members = some (some job) := slot_of_slots?_object h
    exact .member (named_of_atMostOnce hslot)
  | array items =>
    have hlen : items.length = outlineFields.length := slots?_length h
    rw [slots?, if_pos hlen] at h
    obtain ⟨first, others, rfl⟩ := List.exists_cons_of_length_eq_add_one hlen
    obtain rfl : first = job := Option.some.inj (List.cons.inj (Option.some.inj h)).1
    exact .item (Nat.succ.inj hlen)
  | _ => cases h

/-- A job is missing where null stands in its place, or an object that is no
record of a job. -/
theorem eq_none_iff_of_job? {value : Json} {job : Option Job} (h : job? value = some job) :
    job = none ↔
      value = .null ∨ ∃ members, value = .object members ∧ ∀ j, ¬ IsRecordOf members j := by
  unfold job? at h
  split at h
  next hfits =>
    split at h
    next =>
      cases h
      simp
    next hnull =>
      unfold jobOrNone? at h
      split at h
      next j hread =>
        cases h
        constructor
        · rintro ⟨⟩
        · rintro (rfl | ⟨members, rfl, hnever⟩)
          · exact absurd rfl hnull
          · exact absurd (Job.ofJson?_object_iff.1 hread) (hnever j)
      next members hread =>
        cases h
        simp only [true_iff]
        refine .inr ⟨members, rfl, fun j hrecord => ?_⟩
        rw [Job.ofJson?_object_iff.2 hrecord] at hread
        cases hread
      next => cases h
  next => cases h

/-- The job of an outline is missing if and only if null stands in its place, or
an object that is no record of a job. No job is lost if and only if the object,
unless it is empty, is the record of a job. -/
theorem job_kept_iff {value : Json} {o : Outline} (h : Outline.ofJson? value = some o) :
    ∃ job, HoldsJob value job ∧
      (o.job = none ↔
        job = .null ∨ ∃ members, job = .object members ∧ ∀ j, ¬ IsRecordOf members j) ∧
      (KeepsJob job o.job ↔
        ∀ members, job = .object members → members ≠ [] → ∃ j, IsRecordOf members j) := by
  obtain ⟨job, slots, hslots, hread⟩ := Outline.job_of_ofJson? h
  have hnone := eq_none_iff_of_job? hread
  refine ⟨job, holdsJob_of_slots? hslots, hnone, ?_, ?_⟩
  · intro hkeeps members hjob hne
    apply Classical.byContradiction
    intro hrecord
    exact hkeeps.kept members hjob hne (hnone.2 (.inr ⟨members, hjob, not_exists.1 hrecord⟩))
  · intro hrecords
    constructor
    case kept =>
      rintro members rfl hne hmissing
      obtain ⟨j, hrecord⟩ := hrecords members rfl hne
      rcases hnone.1 hmissing with h | ⟨_, ⟨⟩, hnever⟩
      · cases h
      · exact hnever j hrecord
    case missing =>
      intro hmissing
      rcases hnone.1 hmissing with rfl | ⟨members, rfl, hnever⟩
      · exact .inl rfl
      · by_cases hne : members = []
        · exact .inr (.inl (by rw [hne]))
        · obtain ⟨j, hrecord⟩ := hrecords members rfl hne
          exact absurd hrecord (hnever j)

/-- The outline of a deck that holds nothing but the job. -/
def deckWithJob (job : Json) : Json :=
  .object [("job", job), ("steps", .array []), ("datasets", .array []), ("warnings", .array [])]

/-- The record of a job that has a class and no more attributes. -/
def classedJob : Job := ⟨"PAYROLL", some "A", none, none, "//PAYROLL JOB CLASS=A"⟩

theorem job_kept_classedJob :
    Outline.ofJson? (deckWithJob classedJob.toJson) = some ⟨some classedJob, [], [], []⟩ ∧
      ∃ job, HoldsJob (deckWithJob classedJob.toJson) job ∧
        (some classedJob = none ↔
          job = .null ∨ ∃ members, job = .object members ∧ ∀ j, ¬ IsRecordOf members j) ∧
        (KeepsJob job (some classedJob) ↔
          ∀ members, job = .object members → members ≠ [] → ∃ j, IsRecordOf members j) :=
  have hread : Outline.ofJson? (deckWithJob classedJob.toJson) =
      some ⟨some classedJob, [], [], []⟩ := rfl
  ⟨hread, job_kept_iff hread⟩

/-- A job with a name and a class, but without its card. -/
def jobWithoutCard : Json := .object [("name", .string "PAYROLL"), ("class", .string "A")]

/-- The outline is read without an error, and the job in it is lost. -/
theorem card_discarded :
    Outline.ofJson? (deckWithJob jobWithoutCard) = some ⟨none, [], [], []⟩ ∧
      HoldsJob (deckWithJob jobWithoutCard) jobWithoutCard ∧ ¬ KeepsJob jobWithoutCard none :=
  ⟨rfl, .member rfl, fun h => h.kept _ rfl (List.cons_ne_nil _ _) rfl⟩

end Jcl

end Mainframe
