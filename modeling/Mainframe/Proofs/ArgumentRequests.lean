import Mainframe.Proofs.RequestedJobs

/-
  What arguments ask for, and the same arguments without the output switch.

  How arguments are written does not depend on what has been asked for before:
  they are a list of requests, each of a switch with its value or of a file, up
  to the first thing that is no request. Whether the requests are granted is
  decided afterwards, one by one.

  The output switch may be attached to other letters, and its value to it or in
  the next argument. Without it, the other letters stay.

  What is proved:
    1. `scan_eq_takeAll`: reading arguments is granting the requests that they
       are, in order.
    2. `takeAll_withoutOutput` and `outputsOf_eq_toList`: the requests without
       those of an output lead to the same settings without an output; the
       output is the only one that is asked for.
    3. `requests_kept`: the arguments without the output switch are the requests
       without those of an output.
    4. `outputsOf_requests`: a command without an output switch is asked for no
       output.
    5. `scan_kept`: what reading the arguments comes to, with and without the
       switch.
-/

namespace Mainframe.Command

/-! ## Two steps -/

/-- What succeeds in two steps succeeds in the first one. -/
theorem exists_of_bind_eq_ok {α β ε : Type} {x : Except ε α} {f : α → Except ε β} {b : β}
    (h : x.bind f = .ok b) : ∃ a, x = .ok a ∧ f a = .ok b := by
  cases x with
  | error e => cases h
  | ok a => exact ⟨a, rfl, h⟩

theorem exists_of_map_eq_ok {α β ε : Type} {x : Except ε α} {f : α → β} {b : β}
    (h : x.map f = .ok b) : ∃ a, x = .ok a ∧ f a = b := by
  cases x with
  | error e => cases h
  | ok a => exact ⟨a, rfl, Except.ok.inj h⟩

theorem eq_error_of_map_eq_error {α β ε : Type} {x : Except ε α} {f : α → β} {e : ε}
    (h : x.map f = .error e) : x = .error e := by
  cases x with
  | error first => exact congrArg _ (Except.error.inj h)
  | ok a => cases h

/-- What fails in two steps fails in one of them. -/
theorem eq_error_of_bind_eq_error {α β ε : Type} {x : Except ε α} {f : α → Except ε β} {e : ε}
    (h : x.bind f = .error e) : x = .error e ∨ ∃ a, x = .ok a ∧ f a = .error e := by
  cases x with
  | error first => exact .inl (congrArg _ (Except.error.inj h))
  | ok a => exact .inr ⟨a, rfl, h⟩

/-! ## Requests -/

/-- One thing that arguments ask for, or what is wrong with them. -/
inductive Request where
  | switch (topic : Topic) (value : String)
  | file (path : String)
  | wrong
  deriving DecidableEq, Repr

/-- Some requests, and the switch that still lacks its value. -/
abbrev Asked := List Request × Option Topic

section
variable (g : Grammar)

/-- What a switch in its long form asks for. -/
def longRequests (name : String) (value : Option String) : Asked :=
  match g.switches.find? (fun w => w.long == name), value with
  | none, _ => ([.wrong], none)
  | some w, some v => (if w.takesValue then [.switch w.topic v] else [.wrong], none)
  | some w, none =>
    if w.takesValue then ([], some w.topic) else ([.switch w.topic ""], none)

/-- What switches in their short form ask for. -/
def shortRequests : List Char → Asked
  | [] => ([], none)
  | c :: letters =>
    match g.switches.find? (fun w => w.short == some c) with
    | none => ([.wrong], none)
    | some w =>
      if w.takesValue then
        match letters with
        | [] => ([], some w.topic)
        | '=' :: value => ([.switch w.topic (String.ofList value)], none)
        | value => ([.switch w.topic (String.ofList value)], none)
      else (.switch w.topic "" :: (shortRequests letters).1, (shortRequests letters).2)

/-- What one argument asks for. -/
def argumentRequests (pending : Option Topic) (a : String) : Asked :=
  match pending, Argument.ofString a with
  | some topic, .plain value => ([.switch topic value], none)
  | some _, _ => ([.wrong], none)
  | none, .long name value => longRequests g name value
  | none, .short letters => shortRequests g letters
  | none, .plain file => ([.file file], none)
  | none, .escape => ([], none)

/-- What the arguments of a command ask for. -/
def requests : Option Topic → List String → List Request
  | none, [] => []
  | some _, [] => [.wrong]
  | pending, a :: rest =>
    if pending.isNone && a == "--" then rest.map .file
    else
      (argumentRequests g pending a).1 ++ requests (argumentRequests g pending a).2 rest

/-- The settings once a request has been granted. -/
def Settings.take (s : Settings) : Request → Except Stop Settings
  | .switch topic value => s.give topic value
  | .file path => s.giveFile g path
  | .wrong => .error .usage

/-- The settings once all requests have been granted. -/
def Settings.takeAll (s : Settings) (rs : List Request) : Except Stop Settings :=
  rs.foldlM (Settings.take g) s

/-- The settings once what is asked for has been granted. -/
def Settings.grant (s : Settings) (asked : Asked) : Except Stop Progress :=
  (s.takeAll g asked.1).map (fun t => (t, asked.2))

end

section
variable {g : Grammar} {s t : Settings}

theorem takeAll_cons (r : Request) (rs : List Request) :
    s.takeAll g (r :: rs) = (s.take g r).bind (fun u => u.takeAll g rs) :=
  List.foldlM_cons ..

theorem exists_of_takeAll_cons {r : Request} {rs : List Request}
    (h : s.takeAll g (r :: rs) = .ok t) : ∃ u, s.take g r = .ok u ∧ u.takeAll g rs = .ok t := by
  rw [takeAll_cons] at h
  exact exists_of_bind_eq_ok h

theorem takeAll_append (rs rs' : List Request) :
    s.takeAll g (rs ++ rs') = (s.takeAll g rs).bind (fun u => u.takeAll g rs') :=
  List.foldlM_append ..

theorem takeAll_singleton (r : Request) : s.takeAll g [r] = s.take g r := by
  rw [takeAll_cons]
  cases s.take g r <;> rfl

/-- What asks for one thing and lacks no value. -/
theorem grant_singleton (r : Request) :
    s.grant g ([r], none) = (s.take g r).map (fun t => (t, none)) := by
  rw [Settings.grant, takeAll_singleton]

theorem giveLong_eq_grant (name : String) (value : Option String) :
    giveLong g s name value = s.grant g (longRequests g name value) := by
  unfold giveLong longRequests
  cases g.switches.find? (fun w => w.long == name) with
  | none => rfl
  | some w =>
    cases hvalue : w.takesValue <;> cases value <;>
      simp only [hvalue, if_true, Bool.false_eq_true, if_false, grant_singleton] <;> rfl

theorem giveShort_eq_grant (letters : List Char) :
    giveShort g s letters = s.grant g (shortRequests g letters) := by
  induction letters generalizing s with
  | nil => rfl
  | cons c letters ih =>
    unfold giveShort shortRequests
    cases hfind : g.switches.find? (fun w => w.short == some c) with
    | none => rfl
    | some w =>
      by_cases hvalue : w.takesValue = true
      · simp only [hvalue, if_true]
        -- the letters behind the switch are its value, or there are none
        split
        · rfl
        · simp only [grant_singleton]
          rfl
        · simp only [grant_singleton]
          rfl
      · simp only [hvalue, Bool.false_eq_true, if_false, Settings.grant, takeAll_cons,
          Settings.take]
        cases hgiven : s.give w.topic "" with
        | error stop => rfl
        | ok u => exact ih

theorem giveArgument_eq_grant (pending : Option Topic) (a : String) :
    giveArgument g s pending a = s.grant g (argumentRequests g pending a) := by
  unfold giveArgument argumentRequests
  cases pending with
  | some topic =>
    cases Argument.ofString a with
    | plain value => exact (grant_singleton (.switch topic value)).symm
    | _ => rfl
  | none =>
    cases Argument.ofString a with
    | escape => rfl
    | long name value => exact giveLong_eq_grant name value
    | short letters => exact giveShort_eq_grant letters
    | plain file => exact (grant_singleton (.file file)).symm

theorem scanFiles_eq_takeAll (files : List String) :
    scanFiles g s files = s.takeAll g (files.map .file) := by
  rw [scanFiles, Settings.takeAll, List.foldlM_map]
  rfl

/-- Reading arguments is granting what they ask for. -/
theorem scan_eq_takeAll (pending : Option Topic) (args : List String) :
    scan g (s, pending) args = s.takeAll g (requests g pending args) := by
  induction args generalizing s pending with
  | nil => cases pending <;> rfl
  | cons a rest ih =>
    rw [scan, requests]
    split
    · exact scanFiles_eq_takeAll rest
    · rw [giveArgument_eq_grant, Settings.grant, takeAll_append]
      cases s.takeAll g (argumentRequests g pending a).1 with
      | error stop => rfl
      | ok u => exact ih _

theorem wrong_not_mem_of_takeAll {rs : List Request} (h : s.takeAll g rs = .ok t) :
    .wrong ∉ rs := by
  induction rs generalizing s with
  | nil => exact List.not_mem_nil
  | cons r rs ih =>
    obtain ⟨u, htaken, hrest⟩ := exists_of_takeAll_cons h
    intro hmem
    rcases List.mem_cons.1 hmem with heq | hmem
    · rw [← heq] at htaken
      cases htaken
    · exact ih hrest hmem

end

/-! ## Settings without an output -/

/-- The output that a request asks for. -/
def Request.output? : Request → Option String
  | .switch .output path => some path
  | _ => none

/-- The outputs that are asked for. -/
def outputsOf (rs : List Request) : List String := rs.filterMap Request.output?

/-- The requests that ask for no output. -/
def otherRequests (rs : List Request) : List Request := rs.filter (fun r => r.output?.isNone)

/-- The settings as if no output had been asked for. -/
def Settings.withoutOutput (s : Settings) : Settings :=
  { s with given := s.given.erase .output, output := none }

section
variable {g : Grammar} {s t : Settings}

theorem output?_of_ne {topic : Topic} (h : topic ≠ .output) (value : String) :
    (Request.switch topic value).output? = none := by
  cases topic <;> first | rfl | exact absurd rfl h

theorem give_output {path : String} (h : s.give .output path = .ok t) :
    .output ∉ s.given ∧ t = { s with given := .output :: s.given, output := some path } := by
  unfold Settings.give at h
  split at h
  · cases h
  next hgiven => exact ⟨by simpa using hgiven, (Except.ok.inj h).symm⟩

theorem give_other {topic : Topic} (hne : topic ≠ .output) {value : String}
    (h : s.give topic value = .ok t) :
    t.given = topic :: s.given ∧ t.output = s.output ∧
      s.withoutOutput.give topic value = .ok t.withoutOutput := by
  have herase : (topic :: s.given).erase .output = topic :: s.given.erase .output :=
    List.erase_cons_tail (by simpa using hne)
  unfold Settings.give at h ⊢
  split at h
  · cases h
  next hgiven =>
    have hother : ¬ s.withoutOutput.given.contains topic = true := by
      simp only [List.contains_iff_mem] at hgiven ⊢
      exact fun hmem => hgiven (List.mem_of_mem_erase hmem)
    rw [if_neg hother]
    cases topic with
    | output => exact absurd rfl hne
    | version => cases h
    | help => cases h
    | language =>
      cases hlanguage : Language.ofUser value with
      | error cause => simp [hlanguage] at h
      | ok l =>
        simp only [hlanguage, Except.ok.injEq] at h
        subst h
        exact ⟨rfl, rfl, by simp only [Settings.withoutOutput, herase]⟩
    | format =>
      cases hformat : Format.ofName? value with
      | none => simp [hformat] at h
      | some f =>
        simp only [hformat, Except.ok.injEq] at h
        subst h
        exact ⟨rfl, rfl, by simp only [Settings.withoutOutput, herase]⟩
    | _ =>
      simp only [Except.ok.injEq] at h
      subst h
      exact ⟨rfl, rfl, by simp only [Settings.withoutOutput, herase]⟩

theorem giveFile_withoutOutput {file : String} (h : s.giveFile g file = .ok t) :
    t.given = s.given ∧ t.output = s.output ∧
      s.withoutOutput.giveFile g file = .ok t.withoutOutput := by
  unfold Settings.giveFile at h
  split at h
  next htaken =>
    rw [← Except.ok.inj h]
    exact ⟨rfl, rfl, if_pos htaken⟩
  next => cases h

/-- A request of something else is granted whether or not there is an output,
and leaves the output alone. -/
theorem take_other {r : Request} (hr : r.output? = none) (h : s.take g r = .ok t) :
    (.output ∈ t.given ↔ .output ∈ s.given) ∧ t.output = s.output ∧
      s.withoutOutput.take g r = .ok t.withoutOutput := by
  cases r with
  | wrong => cases h
  | file path =>
    obtain ⟨hgiven, hout, htaken⟩ := giveFile_withoutOutput h
    exact ⟨by rw [hgiven], hout, htaken⟩
  | switch topic value =>
    have hne : topic ≠ .output := by
      rintro rfl
      cases hr
    obtain ⟨hgiven, hout, htaken⟩ := give_other hne h
    refine ⟨?_, hout, htaken⟩
    rw [hgiven, List.mem_cons]
    exact or_iff_right hne.symm

theorem take_output {r : Request} {path : String} (hr : r.output? = some path)
    (h : s.take g r = .ok t) :
    .output ∉ s.given ∧ .output ∈ t.given ∧ t.output = some path ∧
      t.withoutOutput = s.withoutOutput := by
  cases r with
  | wrong => cases hr
  | file file => cases hr
  | switch topic value =>
    cases topic with
    | output =>
      obtain rfl := Option.some.inj hr
      obtain ⟨hgiven, rfl⟩ := give_output h
      refine ⟨hgiven, List.mem_cons_self, rfl, ?_⟩
      simp only [Settings.withoutOutput, List.erase_cons_head, List.erase_of_not_mem hgiven]
    | _ => cases hr

theorem takeAll_withoutOutput {rs : List Request} (h : s.takeAll g rs = .ok t) :
    s.withoutOutput.takeAll g (otherRequests rs) = .ok t.withoutOutput := by
  induction rs generalizing s with
  | nil =>
    rw [← Except.ok.inj h]
    rfl
  | cons r rs ih =>
    obtain ⟨u, htaken, hrest⟩ := exists_of_takeAll_cons h
    cases hr : r.output? with
    | some path =>
      have hsame := (take_output hr htaken).2.2.2
      rw [otherRequests, List.filter_cons_of_neg (by simp [hr]), ← hsame]
      exact ih hrest
    | none =>
      have hother := (take_other hr htaken).2.2
      rw [otherRequests, List.filter_cons_of_pos (by simp [hr]), takeAll_cons, hother]
      exact ih hrest

theorem outputsOf_eq_nil_of_given {rs : List Request} (h : s.takeAll g rs = .ok t)
    (hgiven : .output ∈ s.given) : outputsOf rs = [] ∧ t.output = s.output := by
  induction rs generalizing s with
  | nil =>
    rw [← Except.ok.inj h]
    exact ⟨rfl, rfl⟩
  | cons r rs ih =>
    obtain ⟨u, htaken, hrest⟩ := exists_of_takeAll_cons h
    cases hr : r.output? with
    | some path => exact absurd hgiven (take_output hr htaken).1
    | none =>
      obtain ⟨hsame, hout, -⟩ := take_other hr htaken
      obtain ⟨hnone, hlast⟩ := ih hrest (hsame.2 hgiven)
      exact ⟨(List.filterMap_cons_none hr).trans hnone, hlast.trans hout⟩

/-- The output switch is granted once, so there is one output at most, and that
is what has been asked for. -/
theorem outputsOf_eq_toList {rs : List Request} (h : s.takeAll g rs = .ok t)
    (hgiven : .output ∉ s.given) (hnone : s.output = none) : outputsOf rs = t.output.toList := by
  induction rs generalizing s with
  | nil =>
    rw [← Except.ok.inj h, hnone]
    rfl
  | cons r rs ih =>
    obtain ⟨u, htaken, hrest⟩ := exists_of_takeAll_cons h
    cases hr : r.output? with
    | some path =>
      obtain ⟨-, hnow, hout, -⟩ := take_output hr htaken
      obtain ⟨hmore, hlast⟩ := outputsOf_eq_nil_of_given hrest hnow
      have hfirst : outputsOf (r :: rs) = path :: outputsOf rs := List.filterMap_cons_some hr
      rw [hfirst, hmore, hlast, hout]
      rfl
    | none =>
      obtain ⟨hsame, hout, -⟩ := take_other hr htaken
      have hother : outputsOf (r :: rs) = outputsOf rs := List.filterMap_cons_none hr
      rw [hother]
      exact ih hrest (fun hmem => hgiven (hsame.1 hmem)) (hout.trans hnone)

end

/-! ## Arguments without the output switch -/

section
variable (g : Grammar)

/-- The letters in front of the output switch, with the values of others. -/
def keptLetters : List Char → List Char
  | [] => []
  | c :: letters =>
    match g.switches.find? (fun w => w.short == some c) with
    | none => c :: letters
    | some w =>
      if w.takesValue then if w.topic = .output then [] else c :: letters
      else c :: keptLetters letters

/-- The argument without the output switch, if anything is left of it. A value
goes with its switch. -/
def keptArgument (pending : Option Topic) (a : String) : List String :=
  match pending, Argument.ofString a with
  | some topic, _ => if topic = .output then [] else [a]
  | none, .long name _ =>
    if (g.switches.find? (fun w => w.long == name)).map Switch.topic = some .output then []
    else [a]
  | none, .short letters =>
    match keptLetters g letters with
    | [] => []
    | c :: kept => [String.ofList ('-' :: c :: kept)]
  | none, _ => [a]

/-- The arguments of a command without the output switch. -/
def kept : Option Topic → List String → List String
  | _, [] => []
  | pending, a :: rest =>
    if pending.isNone && a == "--" then a :: rest
    else keptArgument g pending a ++ kept (argumentRequests g pending a).2 rest

/-- The outputs that the arguments of a command ask for. -/
def outputs (args : List String) : List String := outputsOf (requests g none args)

/-- The output switch is one that takes a value. -/
def Grammar.OutputTakesValue : Prop :=
  ∀ w ∈ g.switches, w.topic = .output → w.takesValue = true

instance : Decidable g.OutputTakesValue := List.decidableBAll _ _

end

/-- The switch that lacks its value, unless it is the output switch. -/
def keptPending (pending : Option Topic) : Option Topic :=
  if pending = some .output then none else pending

section
variable {g : Grammar} {pending : Option Topic} {a : String} {rest : List String}

theorem otherRequests_append (rs rs' : List Request) :
    otherRequests (rs ++ rs') = otherRequests rs ++ otherRequests rs' := List.filter_append ..

theorem otherRequests_singleton_of_ne {topic : Topic} (h : topic ≠ .output) (value : String) :
    otherRequests [.switch topic value] = [.switch topic value] := by
  simp [otherRequests, output?_of_ne h]

theorem keptPending_of_ne {topic : Topic} (h : topic ≠ .output) :
    keptPending (some topic) = some topic := by
  simp [keptPending, h]

theorem shortRequests_keptLetters (hg : g.OutputTakesValue) (letters : List Char) :
    shortRequests g (keptLetters g letters) =
      (otherRequests (shortRequests g letters).1, keptPending (shortRequests g letters).2) := by
  induction letters with
  | nil => rfl
  | cons c letters ih =>
    cases hfind : g.switches.find? (fun w => w.short == some c) with
    | none =>
      simp only [keptLetters, shortRequests, hfind]
      rfl
    | some w =>
      by_cases hvalue : w.takesValue = true
      · by_cases hout : w.topic = .output
        · simp only [keptLetters, shortRequests, hfind, hvalue, hout, if_true]
          split <;> rfl
        · have hsame : keptLetters g (c :: letters) = c :: letters := by
            simp only [keptLetters, hfind, hvalue, hout, if_true, if_false]
          rw [hsame]
          simp only [shortRequests, hfind, hvalue, if_true]
          split <;> simp only [otherRequests_singleton_of_ne hout, keptPending_of_ne hout] <;> rfl
      · have hout : w.topic ≠ .output :=
          fun htopic => hvalue (hg w (List.mem_of_find?_eq_some hfind) htopic)
        have hother (rs : List Request) : otherRequests (.switch w.topic "" :: rs) =
            .switch w.topic "" :: otherRequests rs :=
          List.filter_cons_of_pos (by simp [output?_of_ne hout])
        simp only [keptLetters, shortRequests, hfind, hvalue, Bool.false_eq_true, if_false, ih,
          hother]

theorem longRequests_output {name : String} {w : Switch}
    (hfind : g.switches.find? (fun w => w.long == name) = some w) (hout : w.topic = .output)
    (hvalue : w.takesValue = true) (value : Option String) :
    otherRequests (longRequests g name value).1 = [] ∧
      keptPending (longRequests g name value).2 = none := by
  cases value <;>
    simp [longRequests, hfind, hvalue, hout, otherRequests, Request.output?, keptPending]

theorem longRequests_other {name : String} {w : Switch}
    (hfind : g.switches.find? (fun w => w.long == name) = some w) (hout : w.topic ≠ .output)
    (value : Option String) :
    longRequests g name value =
      (otherRequests (longRequests g name value).1,
        keptPending (longRequests g name value).2) := by
  cases hvalue : w.takesValue <;> cases value <;>
    simp only [longRequests, hfind, hvalue, Bool.false_eq_true, if_true, if_false,
      otherRequests_singleton_of_ne hout, keptPending_of_ne hout] <;> rfl

/-- Whatever is left of the letters of an argument starts as they do. -/
theorem keptLetters_eq_cons {c d : Char} {letters rest : List Char}
    (h : keptLetters g (c :: letters) = d :: rest) : d = c := by
  unfold keptLetters at h
  split at h
  · exact (List.cons.inj h).1.symm
  · split at h
    · split at h
      · cases h
      · exact (List.cons.inj h).1.symm
    · exact (List.cons.inj h).1.symm

theorem short_of_ofString {letters : List Char} (h : Argument.ofString a = .short letters) :
    ∃ c rest, letters = c :: rest ∧ c ≠ '-' ∧ a.toList = '-' :: letters := by
  unfold Argument.ofString at h
  split at h
  · cases h
  · split at h <;> cases h
  next c others _ hlong hlist =>
    obtain rfl := Argument.short.inj h
    refine ⟨c, others, rfl, ?_, hlist⟩
    rintro rfl
    exact hlong rfl
  · cases h

theorem ofString_short {c : Char} (hc : c ≠ '-') (letters : List Char) :
    Argument.ofString (String.ofList ('-' :: c :: letters)) = .short (c :: letters) := by
  unfold Argument.ofString
  rw [String.toList_ofList]
  split
  next h => exact absurd (List.cons.inj (List.cons.inj h).2).1 hc
  next h => exact absurd (List.cons.inj (List.cons.inj h).2).1 hc
  next h =>
    obtain ⟨rfl, rfl⟩ := List.cons.inj (List.cons.inj h).2
    rfl
  next h => exact absurd rfl (h c letters)

theorem eq_of_ofString_escape (h : Argument.ofString a = .escape) : a = "--" := by
  unfold Argument.ofString at h
  split at h
  next hlist => exact String.toList_inj.1 hlist
  · split at h <;> cases h
  · cases h
  · cases h

/-- Without the output switch, the argument asks for the rest of what it asks for,
or there is nothing left of either. -/
def KeepsRest (g : Grammar) (pending : Option Topic) (a : String) : Prop :=
  (keptArgument g pending a = [] ∧ otherRequests (argumentRequests g pending a).1 = [] ∧
    keptPending (argumentRequests g pending a).2 = keptPending pending) ∨
  ∃ b, keptArgument g pending a = [b] ∧ Argument.ofString b ≠ .escape ∧
    argumentRequests g (keptPending pending) b =
      (otherRequests (argumentRequests g pending a).1,
        keptPending (argumentRequests g pending a).2)

theorem keepsRest_value (topic : Topic) {value : String}
    (hwritten : Argument.ofString a = .plain value) : KeepsRest g (some topic) a := by
  by_cases hout : topic = .output
  · subst hout
    left
    have hnothing : keptArgument g (some .output) a = [] := by simp only [keptArgument, if_true]
    simp only [argumentRequests, hwritten]
    exact ⟨hnothing, rfl, rfl⟩
  · right
    have hwhole : keptArgument g (some topic) a = [a] := by
      simp only [keptArgument, hout, if_false]
    refine ⟨a, hwhole, by rw [hwritten]; exact Argument.noConfusion, ?_⟩
    simp only [argumentRequests, hwritten, keptPending_of_ne hout,
      otherRequests_singleton_of_ne hout]
    rfl

theorem keepsRest_file {file : String} (hwritten : Argument.ofString a = .plain file) :
    KeepsRest g none a := by
  have hnone : keptPending none = none := rfl
  have hwhole : keptArgument g none a = [a] := by simp only [keptArgument, hwritten]
  refine .inr ⟨a, hwhole, by rw [hwritten]; exact Argument.noConfusion, ?_⟩
  simp only [hnone, argumentRequests, hwritten]
  rfl

theorem keepsRest_short (hg : g.OutputTakesValue) {letters : List Char}
    (hwritten : Argument.ofString a = .short letters) : KeepsRest g none a := by
  have hnone : keptPending none = none := rfl
  obtain ⟨c, others, rfl, hc, -⟩ := short_of_ofString hwritten
  have hrest := shortRequests_keptLetters hg (c :: others)
  cases hleft : keptLetters g (c :: others) with
  | nil =>
    left
    have hnothing : keptArgument g none a = [] := by simp only [keptArgument, hwritten, hleft]
    rw [hleft] at hrest
    obtain ⟨hrequests, hpending⟩ := Prod.mk.inj hrest
    simp only [argumentRequests, hwritten]
    exact ⟨hnothing, hrequests.symm, hpending.symm⟩
  | cons d left =>
    right
    obtain rfl := keptLetters_eq_cons hleft
    have hpart : keptArgument g none a = [String.ofList ('-' :: d :: left)] := by
      simp only [keptArgument, hwritten, hleft]
    have hshort := ofString_short hc left
    refine ⟨_, hpart, by rw [hshort]; exact Argument.noConfusion, ?_⟩
    rw [hleft] at hrest
    simp only [argumentRequests, hwritten, hshort, hnone]
    exact hrest

theorem keepsRest_long (hg : g.OutputTakesValue) {name : String} {value : Option String}
    (hwritten : Argument.ofString a = .long name value)
    (hwrong : .wrong ∉ (argumentRequests g none a).1) : KeepsRest g none a := by
  have hnone : keptPending none = none := rfl
  cases hfind : g.switches.find? (fun w => w.long == name) with
  | none => simp [argumentRequests, hwritten, longRequests, hfind] at hwrong
  | some w =>
    by_cases hout : w.topic = .output
    · left
      have hnothing : keptArgument g none a = [] := by
        simp only [keptArgument, hwritten, hfind, Option.map_some, hout, if_true]
      have hvalue := hg w (List.mem_of_find?_eq_some hfind) hout
      simp only [argumentRequests, hwritten, hnone]
      exact ⟨hnothing, longRequests_output hfind hout hvalue value⟩
    · right
      have hwhole : keptArgument g none a = [a] := by
        simp only [keptArgument, hwritten, hfind, Option.map_some, Option.some.injEq, hout,
          if_false]
      refine ⟨a, hwhole, by rw [hwritten]; exact Argument.noConfusion, ?_⟩
      simp only [argumentRequests, hwritten, hnone]
      exact longRequests_other hfind hout value

theorem keepsRest (hg : g.OutputTakesValue) (hwrong : .wrong ∉ (argumentRequests g pending a).1)
    (hescape : Argument.ofString a ≠ .escape) : KeepsRest g pending a := by
  cases hwritten : Argument.ofString a with
  | escape => exact absurd hwritten hescape
  | plain text =>
    cases pending with
    | some topic => exact keepsRest_value topic hwritten
    | none => exact keepsRest_file hwritten
  | short letters =>
    cases pending with
    | some topic => simp [argumentRequests, hwritten] at hwrong
    | none => exact keepsRest_short hg hwritten
  | long name value =>
    cases pending with
    | some topic => simp [argumentRequests, hwritten] at hwrong
    | none => exact keepsRest_long hg hwritten hwrong

theorem requests_cons (h : Argument.ofString a ≠ .escape) :
    requests g pending (a :: rest) =
      (argumentRequests g pending a).1 ++ requests g (argumentRequests g pending a).2 rest := by
  rw [requests, beq_hyphens_eq_false h, Bool.and_false]
  rfl

theorem kept_cons (h : Argument.ofString a ≠ .escape) :
    kept g pending (a :: rest) =
      keptArgument g pending a ++ kept g (argumentRequests g pending a).2 rest := by
  rw [kept, beq_hyphens_eq_false h, Bool.and_false]
  rfl

/-- The arguments without the output switch ask for everything but an output. -/
theorem requests_kept (hg : g.OutputTakesValue) {args : List String}
    (hwrong : .wrong ∉ requests g pending args) :
    requests g (keptPending pending) (kept g pending args) =
      otherRequests (requests g pending args) := by
  induction args generalizing pending with
  | nil =>
    cases pending with
    | none => rfl
    | some topic => exact absurd List.mem_cons_self hwrong
  | cons a rest ih =>
    by_cases hescape : Argument.ofString a = .escape
    · obtain rfl := eq_of_ofString_escape hescape
      cases pending with
      | some topic => exact absurd List.mem_cons_self hwrong
      | none =>
        -- behind the hyphens, only files are asked for
        have hfiles : ∀ r ∈ rest.map Request.file, (r.output?.isNone) = true := by
          intro r hr
          obtain ⟨file, -, rfl⟩ := List.mem_map.1 hr
          rfl
        exact (List.filter_eq_self.2 hfiles).symm
    · rw [requests_cons hescape, List.mem_append, not_or] at hwrong
      have hrest := ih hwrong.2
      rw [requests_cons hescape, otherRequests_append, kept_cons hescape]
      rcases keepsRest hg hwrong.1 hescape with
        ⟨hnothing, hothers, hpending⟩ | ⟨b, hleft, hb, hrequests⟩
      · rw [hnothing, hothers, List.nil_append, List.nil_append, ← hpending]
        exact hrest
      · rw [hleft, List.singleton_append, requests_cons hb, hrequests]
        exact congrArg _ hrest

end

/-! ## Commands without an output switch -/

/-- No output is asked for, and no switch lacks one. -/
def IsFree (asked : Asked) : Prop := outputsOf asked.1 = [] ∧ asked.2 ≠ some .output

theorem isFree_of_output? {r : Request} (h : r.output? = none) : IsFree ([r], none) :=
  ⟨List.filterMap_cons_none h, by simp⟩

theorem isFree_switch {topic : Topic} (h : topic ≠ .output) (value : String) :
    IsFree ([.switch topic value], none) := isFree_of_output? (output?_of_ne h value)

theorem isFree_pending {topic : Topic} (h : topic ≠ .output) : IsFree ([], some topic) :=
  ⟨rfl, fun heq => h (Option.some.inj heq)⟩

theorem isFree_nil : IsFree ([], none) := ⟨rfl, by simp⟩

section
variable {g : Grammar} (hg : ∀ w ∈ g.switches, w.topic ≠ .output)
include hg

theorem isFree_longRequests (name : String) (value : Option String) :
    IsFree (longRequests g name value) := by
  unfold longRequests
  split
  · exact isFree_of_output? rfl
  next w v hfind =>
    have hother := hg w (List.mem_of_find?_eq_some hfind)
    split
    · exact isFree_switch hother v
    · exact isFree_of_output? rfl
  next w hfind =>
    have hother := hg w (List.mem_of_find?_eq_some hfind)
    split
    · exact isFree_pending hother
    · exact isFree_switch hother ""

theorem isFree_shortRequests (letters : List Char) : IsFree (shortRequests g letters) := by
  induction letters with
  | nil => exact isFree_nil
  | cons c letters ih =>
    unfold shortRequests
    split
    · exact isFree_of_output? rfl
    next w hfind =>
      have hother := hg w (List.mem_of_find?_eq_some hfind)
      split
      · split
        · exact isFree_pending hother
        · exact isFree_switch hother _
        · exact isFree_switch hother _
      · have hmore : outputsOf (.switch w.topic "" :: (shortRequests g letters).1) =
            outputsOf (shortRequests g letters).1 :=
          List.filterMap_cons_none (output?_of_ne hother "")
        exact ⟨hmore.trans ih.1, ih.2⟩

theorem isFree_argumentRequests {pending : Option Topic} (hpending : pending ≠ some .output)
    (a : String) : IsFree (argumentRequests g pending a) := by
  unfold argumentRequests
  split
  next topic value _ =>
    have hother : topic ≠ .output := fun heq => hpending (congrArg some heq)
    exact isFree_switch hother value
  · exact isFree_of_output? rfl
  · exact isFree_longRequests hg _ _
  · exact isFree_shortRequests hg _
  · exact isFree_of_output? rfl
  · exact isFree_nil

/-- A command without an output switch is asked for no output. -/
theorem outputsOf_requests {pending : Option Topic} (hpending : pending ≠ some .output)
    (args : List String) : outputsOf (requests g pending args) = [] := by
  induction args generalizing pending with
  | nil => cases pending <;> rfl
  | cons a rest ih =>
    rw [requests]
    split
    · rw [outputsOf, List.filterMap_map]
      exact List.filterMap_eq_nil_iff.2 fun _ _ => rfl
    · obtain ⟨hnone, hnext⟩ := isFree_argumentRequests hg hpending a
      rw [outputsOf, List.filterMap_append]
      exact List.append_eq_nil_iff.2 ⟨hnone, ih hnext⟩

end

/-! ## Reading arguments with and without the switch -/

section
variable {g : Grammar} {s t : Settings} {args : List String}

/-- If arguments are read, they are read without their output switch as well,
and to the same effect but for the output. -/
theorem scan_kept (hg : g.OutputTakesValue) (h : scan g (.initial, none) args = .ok t) :
    scan g (.initial, none) (kept g none args) = .ok t.withoutOutput ∧
      outputs g args = t.output.toList := by
  rw [scan_eq_takeAll] at h
  have hrequests : requests g none (kept g none args) = otherRequests (requests g none args) :=
    requests_kept hg (wrong_not_mem_of_takeAll h)
  refine ⟨?_, outputsOf_eq_toList h List.not_mem_nil rfl⟩
  rw [scan_eq_takeAll, hrequests]
  exact takeAll_withoutOutput h

end

end Mainframe.Command
