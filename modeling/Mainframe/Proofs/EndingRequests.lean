import Mainframe.Proofs.ArgumentRequests

/-
  Arguments that ask a tool for its version or for help.

  Reading the arguments stops at such a request, and the answer stands in place
  of a job. It stops there for nothing else: only a switch of that topic is
  answered so, its request comes from an argument in which the switch is
  written, in its long form or as one of the letters, and beside the switches
  there is only the suite's asking for help by name.

  What is proved:
    1. `exists_switch_of_takeAll`: what stops the requests is among them.
    2. `isIn_of_mem_requests`: a switch that is asked for stands in an argument.
    3. `scan_eq_error` and `scanSuite_eq_error`: why reading the arguments of a
       command, and those of the suite, stops.
    4. `job?_eq_error`: the same of every tool.
-/

namespace Mainframe.Command

/-- The argument is the long form of the switch, or the short form is one of the
letters that are the argument. -/
def Switch.IsIn (w : Switch) (a : String) : Prop :=
  a = "--" ++ w.long ∨
    ∃ letters, a.toList = '-' :: letters ∧ letters.head? ≠ some '-' ∧
      ∃ c ∈ letters, w.short = some c

/-- The switch that is answered in place of a job. -/
def Stop.switch? : Stop → Option Switch
  | usage => none
  | version => some versionSwitch
  | help => some helpSwitch

section
variable {g : Grammar} {s : Settings} {stop : Stop} {w : Switch}

/-! ## What stops the requests -/

/-- A wrong argument has no answer. -/
theorem usage_ne (hw : stop.switch? = some w) : .usage ≠ stop := by
  rintro rfl
  cases hw

theorem give_eq_error (hw : stop.switch? = some w) {topic : Topic} {value : String}
    (h : s.give topic value = .error stop) : topic = w.topic := by
  unfold Settings.give at h
  split at h
  · exact absurd (Except.error.inj h) (usage_ne hw)
  · cases topic with
    | version =>
      rw [← Except.error.inj h] at hw
      exact congrArg Switch.topic (Option.some.inj hw)
    | help =>
      rw [← Except.error.inj h] at hw
      exact congrArg Switch.topic (Option.some.inj hw)
    | language =>
      simp only at h
      split at h
      · cases h
      · exact absurd (Except.error.inj h) (usage_ne hw)
    | format =>
      simp only at h
      split at h
      · cases h
      · exact absurd (Except.error.inj h) (usage_ne hw)
    | _ => cases h

theorem take_eq_error (hw : stop.switch? = some w) {r : Request} (h : s.take g r = .error stop) :
    ∃ value, r = .switch w.topic value := by
  cases r with
  | switch topic value =>
    obtain rfl := give_eq_error hw h
    exact ⟨value, rfl⟩
  | file path =>
    rw [Settings.take, Settings.giveFile] at h
    split at h
    · cases h
    · exact absurd (Except.error.inj h) (usage_ne hw)
  | wrong => exact absurd (Except.error.inj h) (usage_ne hw)

/-- The requests stop at one of the switch that is answered. -/
theorem exists_switch_of_takeAll (hw : stop.switch? = some w) {rs : List Request}
    (h : s.takeAll g rs = .error stop) : ∃ value, .switch w.topic value ∈ rs := by
  induction rs generalizing s with
  | nil => cases h
  | cons r rs ih =>
    rw [takeAll_cons] at h
    cases htaken : s.take g r with
    | error first =>
      rw [htaken] at h
      obtain rfl := Except.error.inj h
      obtain ⟨value, rfl⟩ := take_eq_error hw htaken
      exact ⟨value, List.mem_cons_self⟩
    | ok u =>
      rw [htaken] at h
      obtain ⟨value, hmem⟩ := ih h
      exact ⟨value, List.mem_cons_of_mem r hmem⟩

/-! ## Where a switch is asked for -/

/-- The switch takes no value, and nothing else that is accepted is on its topic. -/
structure Grammar.Knows (g : Grammar) (w : Switch) : Prop where
  takesNone : w.takesValue = false
  only : ∀ w' ∈ g.switches, w'.topic = w.topic → w' = w

/-- What is accepted about the version and about help are the switches for them. -/
def Grammar.KnowsAnswers (g : Grammar) : Prop :=
  ∀ w ∈ g.switches, (w.topic = .version → w = versionSwitch) ∧
    (w.topic = .help → w = helpSwitch)

instance (g : Grammar) : Decidable g.KnowsAnswers := List.decidableBAll _ _

theorem knows_of_switch? (hg : g.KnowsAnswers) (hw : stop.switch? = some w) : g.Knows w := by
  cases stop with
  | usage => cases hw
  | version =>
    obtain rfl := Option.some.inj hw
    exact ⟨rfl, fun w' hmem => (hg w' hmem).1⟩
  | help =>
    obtain rfl := Option.some.inj hw
    exact ⟨rfl, fun w' hmem => (hg w' hmem).2⟩

/-- The switch is asked for only if something holds, and it is not the one that
lacks its value. -/
def AsksOnlyIf (w : Switch) (p : Prop) (asked : Asked) : Prop :=
  (∀ value, .switch w.topic value ∈ asked.1 → p) ∧ asked.2 ≠ some w.topic

section
variable {p : Prop}

theorem asksOnlyIf_of_notMem {asked : Asked} (h : ∀ value, .switch w.topic value ∉ asked.1)
    (hpending : asked.2 ≠ some w.topic) : AsksOnlyIf w p asked :=
  ⟨fun value hmem => absurd hmem (h value), hpending⟩

theorem asksOnlyIf_switch {topic : Topic} (h : topic = w.topic → p) (value : String) :
    AsksOnlyIf w p ([.switch topic value], none) := by
  refine ⟨fun other hmem => h ?_, by simp⟩
  exact (Request.switch.inj (List.mem_singleton.1 hmem)).1.symm

end

/-- A switch of another topic, or one that takes a value, is none that is known. -/
theorem topic_ne_of_takesValue (hg : g.Knows w) {w' : Switch} (hmem : w' ∈ g.switches)
    (hvalue : w'.takesValue = true) : w'.topic ≠ w.topic := by
  intro htopic
  obtain rfl := hg.only w' hmem htopic
  rw [hg.takesNone] at hvalue
  cases hvalue

theorem asksOnlyIf_longRequests (hg : g.Knows w) (name : String) (value : Option String) :
    AsksOnlyIf w (value = none ∧ name = w.long) (longRequests g name value) := by
  unfold longRequests
  split
  · exact asksOnlyIf_of_notMem (by simp) (by simp)
  next w' v hfind =>
    have hmem := List.mem_of_find?_eq_some hfind
    split
    next hvalue =>
      exact asksOnlyIf_switch (fun heq => absurd heq (topic_ne_of_takesValue hg hmem hvalue)) v
    · exact asksOnlyIf_of_notMem (by simp) (by simp)
  next w' hfind =>
    have hmem := List.mem_of_find?_eq_some hfind
    split
    next hvalue =>
      refine asksOnlyIf_of_notMem (by simp) fun heq => ?_
      exact topic_ne_of_takesValue hg hmem hvalue (Option.some.inj heq)
    · refine asksOnlyIf_switch (fun heq => ⟨rfl, ?_⟩) ""
      obtain rfl := hg.only w' hmem heq
      have hlong := List.find?_some hfind
      exact (beq_iff_eq.1 hlong).symm

theorem asksOnlyIf_shortRequests (hg : g.Knows w) (letters : List Char) :
    AsksOnlyIf w (∃ c ∈ letters, w.short = some c) (shortRequests g letters) := by
  induction letters with
  | nil => exact asksOnlyIf_of_notMem (by simp [shortRequests]) (by simp [shortRequests])
  | cons c letters ih =>
    unfold shortRequests
    split
    · exact asksOnlyIf_of_notMem (by simp) (by simp)
    next w' hfind =>
      have hmem := List.mem_of_find?_eq_some hfind
      split
      next hvalue =>
        have hne := topic_ne_of_takesValue hg hmem hvalue
        split
        · exact asksOnlyIf_of_notMem (by simp) fun heq => hne (Option.some.inj heq)
        · exact asksOnlyIf_switch (fun heq => absurd heq hne) _
        · exact asksOnlyIf_switch (fun heq => absurd heq hne) _
      · refine ⟨fun value hasked => ?_, ih.2⟩
        rcases List.mem_cons.1 hasked with heq | hasked
        · obtain rfl := hg.only w' hmem (Request.switch.inj heq).1.symm
          have hshort := List.find?_some hfind
          exact ⟨c, List.mem_cons_self, beq_iff_eq.1 hshort⟩
        · obtain ⟨d, hd, hshort⟩ := ih.1 value hasked
          exact ⟨d, List.mem_cons_of_mem c hd, hshort⟩

theorem eq_of_ofString_long {a name : String} (h : Argument.ofString a = .long name none) :
    a = "--" ++ name := by
  unfold Argument.ofString at h
  split at h
  · cases h
  next s _ hlist =>
    split at h
    next hvalue =>
      -- nothing is left behind the name, so the name is all there is
      have hname := List.takeWhile_append_dropWhile (p := fun c => c != '=') (l := s)
      rw [hvalue, List.append_nil] at hname
      rw [hname] at h
      rw [← (Argument.long.inj h).1]
      have hrest : (String.ofList s).toList = s := String.toList_ofList
      apply String.toList_inj.1
      rw [hlist, String.toList_append, hrest]
      rfl
    · cases h
  · cases h
  · cases h

theorem asksOnlyIf_argumentRequests (hg : g.Knows w) {pending : Option Topic}
    (hpending : pending ≠ some w.topic) (a : String) :
    AsksOnlyIf w (w.IsIn a) (argumentRequests g pending a) := by
  unfold argumentRequests
  split
  next topic value _ =>
    exact asksOnlyIf_switch (fun heq => absurd (congrArg some heq) hpending) value
  · exact asksOnlyIf_of_notMem (by simp) (by simp)
  next name value hwritten =>
    obtain ⟨hasked, hlacks⟩ := asksOnlyIf_longRequests hg name value
    refine ⟨fun v hmem => ?_, hlacks⟩
    obtain ⟨rfl, rfl⟩ := hasked v hmem
    exact .inl (eq_of_ofString_long hwritten)
  next letters hwritten =>
    obtain ⟨hasked, hlacks⟩ := asksOnlyIf_shortRequests hg letters
    obtain ⟨c, rest, rfl, hc, hlist⟩ := short_of_ofString hwritten
    have hhead : (c :: rest).head? ≠ some '-' := fun heq => hc (Option.some.inj heq)
    exact ⟨fun v hmem => .inr ⟨c :: rest, hlist, hhead, hasked v hmem⟩, hlacks⟩
  · exact asksOnlyIf_of_notMem (by simp) (by simp)
  · exact asksOnlyIf_of_notMem (by simp) (by simp)

/-- A switch that is asked for is written in one of the arguments. -/
theorem isIn_of_mem_requests (hg : g.Knows w) {pending : Option Topic}
    (hpending : pending ≠ some w.topic) {value : String} {args : List String}
    (h : .switch w.topic value ∈ requests g pending args) : ∃ a ∈ args, w.IsIn a := by
  induction args generalizing pending with
  | nil =>
    cases pending with
    | none => cases h
    | some topic => simp [requests] at h
  | cons a rest ih =>
    rw [requests] at h
    split at h
    · -- behind the hyphens, only files are asked for
      obtain ⟨file, -, hfile⟩ := List.mem_map.1 h
      cases hfile
    · obtain ⟨hasked, hlacks⟩ := asksOnlyIf_argumentRequests hg hpending a
      rcases List.mem_append.1 h with hmem | hmem
      · exact ⟨a, List.mem_cons_self, hasked value hmem⟩
      · obtain ⟨b, hb, hwritten⟩ := ih hlacks hmem
        exact ⟨b, List.mem_cons_of_mem a hb, hwritten⟩

/-! ## Why reading stops -/

/-- Reading the arguments of a command stops for an answer only where the switch
that asks for it is written. -/
theorem scan_eq_error (hg : g.KnowsAnswers) (hw : stop.switch? = some w) {args : List String}
    (h : scan g (s, none) args = .error stop) : ∃ a ∈ args, w.IsIn a := by
  rw [scan_eq_takeAll] at h
  obtain ⟨value, hmem⟩ := exists_switch_of_takeAll hw h
  exact isIn_of_mem_requests (knows_of_switch? hg hw) (by simp) hmem

theorem giveArgument_eq_error (hg : g.KnowsAnswers) (hw : stop.switch? = some w) {a : String}
    (h : giveArgument g s none a = .error stop) : w.IsIn a := by
  rw [giveArgument_eq_grant] at h
  obtain ⟨value, hmem⟩ := exists_switch_of_takeAll hw (eq_error_of_map_eq_error h)
  exact (asksOnlyIf_argumentRequests (knows_of_switch? hg hw) (by simp) a).1 value hmem

theorem Subcommand.knowsAnswers (command : Subcommand) : command.grammar.KnowsAnswers := by
  cases command <;> decide

theorem eq_of_ofString_plain {a name : String} (h : Argument.ofString a = .plain name) :
    name = a := by
  unfold Argument.ofString at h
  split at h
  · cases h
  · split at h <;> cases h
  · cases h
  · exact (Argument.plain.inj h).symm

theorem ofHelp_eq_help {names : List String} (hw : (Stop.ofHelp names).switch? = some w) :
    Stop.ofHelp names = .help := by
  unfold Stop.ofHelp at hw ⊢
  split
  · rfl
  · split
    · rfl
    next hname => simp [hname, Stop.switch?] at hw
  · simp [Stop.switch?] at hw

/-- Reading the arguments of the suite stops for an answer only where the switch
that asks for it is written, or for help, where that is named. -/
theorem scanSuite_eq_error (hw : stop.switch? = some w) {args : List String}
    (h : scanSuite s args = .error stop) :
    (stop = .help ∧ "help" ∈ args) ∨ ∃ a ∈ args, w.IsIn a := by
  induction args generalizing s with
  | nil =>
    exact absurd (Except.error.inj h) (usage_ne hw)
  | cons a rest ih =>
    unfold scanSuite at h
    split at h
    · exact absurd (Except.error.inj h) (usage_ne hw)
    next name hwritten =>
      obtain rfl := eq_of_ofString_plain hwritten
      split at h
      next command _ =>
        obtain ⟨b, hb, hin⟩ := scan_eq_error command.knowsAnswers hw (eq_error_of_map_eq_error h)
        exact .inr ⟨b, List.mem_cons_of_mem name hb, hin⟩
      next =>
        obtain rfl := Except.error.inj h
        split at hw
        next hhelp =>
          rw [if_pos hhelp]
          exact .inl ⟨ofHelp_eq_help hw, hhelp ▸ List.mem_cons_self⟩
        next => cases hw
    next =>
      split at h
      next progress _ =>
        rcases ih h with ⟨hhelp, hnamed⟩ | ⟨b, hb, hin⟩
        · exact .inl ⟨hhelp, List.mem_cons_of_mem a hnamed⟩
        · exact .inr ⟨b, List.mem_cons_of_mem a hb, hin⟩
      next first hgiven =>
        obtain rfl := Except.error.inj h
        exact .inr ⟨a, List.mem_cons_self, giveArgument_eq_error (by decide) hw hgiven⟩

theorem Subcommand.job?_eq_error {command : Subcommand} (h : command.job? s = .error stop) :
    stop = .usage := by
  unfold Subcommand.job? at h
  split at h <;> cases h
  rfl

theorem extractorJob?_eq_error (h : extractorJob? s = .error stop) : stop = .usage := by
  unfold extractorJob? at h
  split at h <;> cases h
  rfl

/-- A tool answers in place of doing its job only if an argument asks for that. -/
theorem job?_eq_error (hw : stop.switch? = some w) {tool : Tool} {args : List String}
    (h : tool.job? args = .error stop) :
    (tool = .suite ∧ stop = .help ∧ "help" ∈ args) ∨ ∃ a ∈ args, w.IsIn a := by
  cases tool with
  | suite =>
    rcases eq_error_of_bind_eq_error h with hscan | ⟨⟨command, t⟩, -, hjob⟩
    · exact (scanSuite_eq_error hw hscan).imp_left fun hhelp => ⟨rfl, hhelp⟩
    · obtain rfl := Subcommand.job?_eq_error hjob
      cases hw
  | extractor =>
    rcases eq_error_of_bind_eq_error h with hscan | ⟨t, -, hjob⟩
    · exact .inr (scan_eq_error (by decide) hw hscan)
    · obtain rfl := extractorJob?_eq_error hjob
      cases hw
  | summarizer => exact .inr (scan_eq_error (by decide) hw (eq_error_of_map_eq_error h))

end

end Mainframe.Command
