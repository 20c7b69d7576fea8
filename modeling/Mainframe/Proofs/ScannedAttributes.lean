import Mainframe.Jcl.Card
import Mainframe.Proofs.PhrasePlaces

/-
  Where the attributes of a card come from.

  An attribute has a key, and its value stands right behind the key: one capital
  or digit, or a run of allowed characters. The places of a card are tried from
  left to right. A place counts if the key stands there with an allowed
  character behind it, so a key with an empty value is passed over, and a key
  inside the value of another attribute counts like any other one.

  The key of a job's class ends the key of its message class. It has to stand
  apart from the word character before it, which it does not do there.

  What is proved:
    1. `ValueForm.read?_eq_some_iff`: what is read at the front of a text.
    2. `Attribute.reads_leftmost`: what is read of an attribute is its value at
       the first place where it is given.
    3. `attributes_scanned`: the attributes of JOB, EXEC and DD cards.
-/

namespace Mainframe.Jcl

open Mainframe.Text

/-! ## Values -/

/-- How a value is written: as one capital or digit, or as a run of allowed
characters. -/
inductive ValueForm where
  | code
  | run (allowed : Char → Bool)

namespace ValueForm

/-- The characters that a value is made of. -/
def allowed : ValueForm → Char → Bool
  | code => isCode
  | run allowed => allowed

/-- The value at the front of a text that starts with an allowed character. -/
def front : ValueForm → List Char → List Char
  | code, s => s.take 1
  | run allowed, s => s.takeWhile allowed

/-- The reader of the values. -/
def read? : ValueForm → List Char → Option String
  | code => code?
  | run allowed => value? allowed

theorem read?_eq_some_iff {form : ValueForm} {s : List Char} {v : String} :
    form.read? s = some v ↔
      (∃ c rest, s = c :: rest ∧ form.allowed c = true) ∧ String.ofList (form.front s) = v := by
  cases s with
  | nil => cases form <;> simp [read?, code?, value?, name?]
  | cons c rest =>
    have hstart : (∃ d tail, c :: rest = d :: tail ∧ form.allowed d = true) ↔
        form.allowed c = true := by
      constructor
      · rintro ⟨d, tail, ⟨⟩, hd⟩
        exact hd
      · exact fun hc => ⟨c, rest, rfl, hc⟩
    rw [hstart]
    cases form with
    | code => simp [read?, code?, allowed, front]
    | run allowed =>
      rw [read?, value?, name?, front, List.takeWhile_cons]
      by_cases hc : allowed c = true
      · simp [ValueForm.allowed, hc]
      · simp [ValueForm.allowed, hc]

end ValueForm

/-! ## Attributes -/

/-- How an attribute is written. Its key may have to stand apart from a word
before it. -/
structure Attribute where
  key : String
  form : ValueForm
  isApart : Bool := false

namespace Attribute

/-- The class of a job. -/
def jobClass : Attribute := { key := "CLASS=", form := .code, isApart := true }

/-- The key stands at the place, with a character of a value right behind it. -/
def GivenAt (a : Attribute) (card : List Char) (n : Nat) : Prop :=
  (a.isApart = true → IsApart card n) ∧
    ∃ c rest, card.drop n = a.key.toList ++ c :: rest ∧ a.form.allowed c = true

/-- The value behind the key that stands at the place. -/
def valueAt (a : Attribute) (card : List Char) (n : Nat) : String :=
  String.ofList (a.form.front (card.drop (n + a.key.toList.length)))

/-- What is found is the value at the first place where the attribute is given,
and nothing if there is no such place. -/
structure Reads (a : Attribute) (card : List Char) (found : Option String) : Prop where
  present : ∀ v, found = some v ↔
    ∃ n, a.GivenAt card n ∧ (∀ m < n, ¬ a.GivenAt card m) ∧ a.valueAt card n = v
  absent : found = none ↔ ∀ n, ¬ a.GivenAt card n

/-- What is read at a place, where a word character may stand before it. -/
def accept (a : Attribute) (inWord : Bool) (here : List Char) : Option String :=
  if a.isApart && inWord then none else (after? a.key.toList here).bind a.form.read?

theorem accept_eq_some_iff {a : Attribute} {card : List Char} {n : Nat} {v : String} :
    a.accept (wordBefore false card n) (card.drop n) = some v ↔
      a.GivenAt card n ∧ a.valueAt card n = v := by
  have hbehind : ∀ tail, card.drop n = a.key.toList ++ tail →
      card.drop (n + a.key.toList.length) = tail := by
    intro tail htail
    rw [← List.drop_drop, htail, List.drop_left]
  rw [accept]
  split
  next hword =>
    rw [Bool.and_eq_true] at hword
    constructor
    · rintro ⟨⟩
    · rintro ⟨⟨happart, -⟩, -⟩
      have hfree := wordBefore_eq_false_iff.2 (happart hword.1)
      rw [hword.2] at hfree
      cases hfree
  next hfree =>
    simp only [Option.bind_eq_some_iff, after?_eq_some_iff, ValueForm.read?_eq_some_iff]
    constructor
    · rintro ⟨tail, htail, ⟨c, rest, rfl, hc⟩, hv⟩
      refine ⟨⟨fun happart => wordBefore_eq_false_iff.1 ?_, c, rest, htail, hc⟩, ?_⟩
      · simpa [happart] using hfree
      · rw [valueAt, hbehind _ htail, hv]
    · rintro ⟨⟨-, c, rest, hdrop, hc⟩, hv⟩
      rw [valueAt, hbehind _ hdrop] at hv
      exact ⟨c :: rest, hdrop, ⟨c, rest, rfl, hc⟩, hv⟩

theorem GivenAt.le_length {a : Attribute} {card : List Char} {n : Nat} (h : a.GivenAt card n) :
    n ≤ card.length := by
  obtain ⟨-, c, rest, hdrop, -⟩ := h
  rw [List.append_cons] at hdrop
  exact le_length_of_drop_eq (List.append_ne_nil_of_right_ne_nil _ (List.cons_ne_nil c [])) hdrop

/-- What is read from left to right is read at the first place. -/
theorem reads_leftmost (a : Attribute) (card : List Char) :
    a.Reads card (leftmost a.accept false card) := by
  have hfits : ∀ n v, a.accept (wordBefore false card n) (card.drop n) = some v ↔
      a.GivenAt card n ∧ a.valueAt card n = v := fun n v => accept_eq_some_iff
  have hwithin : ∀ n v, a.GivenAt card n ∧ a.valueAt card n = v → n ≤ card.length :=
    fun n v h => h.1.le_length
  have hnever : ∀ n, (∀ v, ¬ (a.GivenAt card n ∧ a.valueAt card n = v)) ↔ ¬ a.GivenAt card n :=
    fun n => ⟨fun h hn => h _ ⟨hn, rfl⟩, fun h v hn => h hn.1⟩
  constructor
  case present =>
    intro v
    rw [leftmost_eq_first_iff hfits hwithin]
    simp only [hnever]
    constructor
    · rintro ⟨n, ⟨hgiven, hv⟩, hfirst⟩
      exact ⟨n, hgiven, hfirst, hv⟩
    · rintro ⟨n, hgiven, hfirst, hv⟩
      exact ⟨n, ⟨hgiven, hv⟩, hfirst⟩
  case absent =>
    rw [leftmost_eq_none_iff hfits hwithin]
    simp only [hnever]

theorem reads_find? (key : String) (form : ValueForm) (card : List Char) :
    Reads { key := key, form := form } card (find? key.toList form.read? card) :=
  reads_leftmost { key := key, form := form } card

theorem reads_findWord? (key : String) (form : ValueForm) (card : List Char) :
    Reads { key := key, form := form, isApart := true } card
      (findWord? key.toList form.read? card) :=
  reads_leftmost { key := key, form := form, isApart := true } card

/-- The key of the message class does not give a class. -/
theorem not_givenAt_jobClass {card rest : List Char} {n : Nat}
    (h : card.drop n = "MSGCLASS=".toList ++ rest) : ¬ jobClass.GivenAt card (n + 3) := by
  rintro ⟨happart, -⟩
  have hbefore : card[n + 2]? = some 'G' := by
    rw [← List.getElem?_drop, h]
    rfl
  have hword : isWordChar 'G' = true := by decide
  rw [happart rfl 'G' (mem_getLast?_take hbefore)] at hword
  cases hword

end Attribute

/-! ## Cards -/

/-- The attributes of a job are those of the card. A class is never taken from
a message class. -/
structure Job.IsScanned (card : List Char) (job : Job) : Prop where
  jobClass : Attribute.jobClass.Reads card job.jobClass
  outside : ∀ n rest, card.drop n = "MSGCLASS=".toList ++ rest →
    ¬ Attribute.jobClass.GivenAt card (n + 3)
  messageClass : Attribute.Reads { key := "MSGCLASS=", form := .code } card job.messageClass
  notify : Attribute.Reads { key := "NOTIFY=", form := .run isUserChar } card job.notify

/-- The attributes of a step are those of the card. The condition is everything
up to a comma. -/
structure Step.IsScanned (card : List Char) (step : Step) : Prop where
  program : Attribute.Reads { key := "PGM=", form := .run isProgramChar } card step.program
  procedure : Attribute.Reads { key := "PROC=", form := .run isCode } card step.procedure
  condition : Attribute.Reads { key := "COND=", form := .run (fun c => c != ',') } card
    step.condition

/-- The attributes of a data definition are those of the card. The dataset is
everything up to a comma or a blank, and the disposition everything up to a comma. -/
structure DataDefinition.IsScanned (card : List Char) (d : DataDefinition) : Prop where
  dataset : Attribute.Reads { key := "DSN=", form := .run (fun c => c != ',' && !isBlank c) } card
    d.dataset
  disposition : Attribute.Reads { key := "DISP=", form := .run (fun c => c != ',') } card
    d.disposition

/-- Each attribute that is read from a card is the value at the first place
where the card gives it, and it is missing if and only if there is none. -/
theorem attributes_scanned (card : List Char) :
    (Job.ofCard card).IsScanned card ∧ (Step.ofCard card).IsScanned card ∧
      (DataDefinition.ofCard card).IsScanned card := by
  refine ⟨?job, ?step, ?definition⟩
  case job =>
    constructor
    case jobClass => exact Attribute.reads_findWord? "CLASS=" .code card
    case outside => exact fun _ _ => Attribute.not_givenAt_jobClass
    case messageClass => exact Attribute.reads_find? "MSGCLASS=" .code card
    case notify => exact Attribute.reads_find? "NOTIFY=" (.run isUserChar) card
  case step =>
    constructor
    case program => exact Attribute.reads_find? "PGM=" (.run isProgramChar) card
    case procedure => exact Attribute.reads_find? "PROC=" (.run isCode) card
    case condition => exact Attribute.reads_find? "COND=" (.run isNoComma) card
  case definition =>
    constructor
    case dataset => exact Attribute.reads_find? "DSN=" (.run isDatasetChar) card
    case disposition => exact Attribute.reads_find? "DISP=" (.run isNoComma) card

/-- A card whose first class and first dataset have no value. -/
def emptyValues : List Char := "//PAY JOB CLASS=,MSGCLASS=H,DSN=,CLASS=A,DSN=PAY.IN NEW".toList

/-- A key without a value is passed over for one that has a value, and the message
class is no class. -/
theorem attributes_of_emptyValues :
    (Job.ofCard emptyValues).jobClass = some "A" ∧
    (∃ n, Attribute.jobClass.GivenAt emptyValues n ∧
      (∀ m < n, ¬ Attribute.jobClass.GivenAt emptyValues m) ∧
      Attribute.jobClass.valueAt emptyValues n = "A") ∧
    (DataDefinition.ofCard emptyValues).dataset = some "PAY.IN" ∧
    (DataDefinition.ofCard emptyValues).disposition = none ∧
    ∀ n, ¬ Attribute.GivenAt { key := "DISP=", form := .run (fun c => c != ',') }
      emptyValues n := by
  have hclass : (Job.ofCard emptyValues).jobClass = some "A" := by decide +kernel
  have hdataset : (DataDefinition.ofCard emptyValues).dataset = some "PAY.IN" := by decide +kernel
  have hdisposition : (DataDefinition.ofCard emptyValues).disposition = none := by decide +kernel
  obtain ⟨hjob, -, hdefinition⟩ := attributes_scanned emptyValues
  exact ⟨hclass, (hjob.jobClass.present "A").1 hclass, hdataset, hdisposition,
    hdefinition.disposition.absent.1 hdisposition⟩

end Mainframe.Jcl
