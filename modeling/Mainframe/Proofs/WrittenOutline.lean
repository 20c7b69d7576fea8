import Mainframe.Outline
import Mainframe.Proofs.WrittenRecord

/-
  Outlines written as JSON values, decoded.

  Every record of the two outlines is decoded from its written form. A job deck
  is looked for first, so a written program also has to be refused there: it
  has members that a deck does not have.

  What is proved:
    1. `Jcl.Outline.ofJson?_toJson` and `Cobol.Outline.ofJson?_toJson`: each
       outline is decoded from its written form.
    2. `Outline.ofJson?_toJson`: so is an outline of either language, in its
       own language.
    3. `Outline.plain_toJson`: the written form of an outline is plain if its
       line numbers are in range.
-/

namespace Mainframe

open Json

/-! ## Job decks -/

namespace Jcl

theorem Job.ofJson?_toJson (j : Job) : Job.ofJson? j.toJson = some j := by
  have hslots := slots?_zip false ["name", "class", "msgclass", "notify", "raw"]
    [.string j.name, .ofOption .string j.jobClass, .ofOption .string j.messageClass,
      .ofOption .string j.notify, .string j.raw] (rfl : j.toJson = _) (by decide) rfl
  rw [Job.ofJson?, hslots]
  simp [required, string?, optional_string]

theorem Job.plain_toJson (j : Job) (room : Nat) : Plain (room + 1) j.toJson := by
  refine .object (fun m hm => ?_)
  simp only [List.mem_cons, List.not_mem_nil, or_false] at hm
  rcases hm with rfl | rfl | rfl | rfl | rfl
  · exact .string _
  · exact plain_ofOption (fun s _ => .string s)
  · exact plain_ofOption (fun s _ => .string s)
  · exact plain_ofOption (fun s _ => .string s)
  · exact .string _

theorem plain_jobJson (job : Option Job) (room : Nat) : Plain (room + 1) (jobJson job) := by
  cases job with
  | none => exact .object (fun m hm => absurd hm List.not_mem_nil)
  | some j => exact j.plain_toJson room

theorem job?_jobJson (job : Option Job) : job? (jobJson job) = some job := by
  have hfits : fits roomInJob (jobJson job) = true := fits_of_plain (plain_jobJson job 125)
  unfold job?
  rw [if_pos hfits]
  cases job with
  | none => rfl
  | some j =>
    show jobOrNone? j.toJson = some (some j)
    unfold jobOrNone?
    rw [j.ofJson?_toJson]

theorem DataDefinition.ofJson?_toJson (d : DataDefinition) :
    DataDefinition.ofJson? d.toJson = some d := by
  have hslots := slots?_zip false ["name", "dsn", "disp", "type", "raw"]
    [.string d.name, .ofOption .string d.dataset, .ofOption .string d.disposition,
      .string d.kind.name, .string d.raw] (rfl : d.toJson = _) (by decide) rfl
  rw [DataDefinition.ofJson?, hslots]
  simp [required, string?, optional_string, keyword?, DataKind.ofName?_name]

theorem DataDefinition.plain_toJson (d : DataDefinition) (room : Nat) :
    Plain (room + 1) d.toJson := by
  refine .object (fun m hm => ?_)
  simp only [List.mem_cons, List.not_mem_nil, or_false] at hm
  rcases hm with rfl | rfl | rfl | rfl | rfl
  · exact .string _
  · exact plain_ofOption (fun s _ => .string s)
  · exact plain_ofOption (fun s _ => .string s)
  · exact .string _
  · exact .string _

theorem Step.ofJson?_toJson (s : Step) : Step.ofJson? s.toJson = some s := by
  have hslots := slots?_zip false ["name", "program", "procedure", "cond", "dds", "raw"]
    [.string s.name, .ofOption .string s.program, .ofOption .string s.procedure,
      .ofOption .string s.condition, .ofList DataDefinition.toJson s.definitions,
      .string s.raw] (rfl : s.toJson = _) (by decide) rfl
  have hdefinitions := list?_ofList DataDefinition.ofJson?_toJson s.definitions
  rw [Step.ofJson?, hslots]
  simp [required, string?, optional_string, hdefinitions]

theorem Step.plain_toJson (s : Step) (room : Nat) : Plain (room + 3) s.toJson := by
  refine .object (fun m hm => ?_)
  simp only [List.mem_cons, List.not_mem_nil, or_false] at hm
  rcases hm with rfl | rfl | rfl | rfl | rfl | rfl
  · exact .string _
  · exact plain_ofOption (fun s _ => .string s)
  · exact plain_ofOption (fun s _ => .string s)
  · exact plain_ofOption (fun s _ => .string s)
  · exact plain_ofList (fun d _ => d.plain_toJson room)
  · exact .string _

theorem Outline.ofJson?_toJson (o : Outline) : Outline.ofJson? o.toJson = some o := by
  have hslots := slots?_zip true outlineFields
    [jobJson o.job, .ofList Step.toJson o.steps, .ofList .string o.datasets,
      .ofList .string o.warnings] (rfl : o.toJson = _) (by decide) rfl
  have hsteps := list?_ofList Step.ofJson?_toJson o.steps
  rw [Outline.ofJson?, hslots]
  simp [required, job?_jobJson, hsteps, list?_strings]

theorem Outline.plain_toJson (o : Outline) (room : Nat) : Plain (room + 5) o.toJson := by
  refine .object (fun m hm => ?_)
  simp only [List.mem_cons, List.not_mem_nil, or_false] at hm
  rcases hm with rfl | rfl | rfl | rfl
  · exact plain_jobJson o.job (room + 3)
  · exact plain_ofList (fun s _ => s.plain_toJson room)
  · exact plain_strings o.datasets
  · exact plain_strings o.warnings

end Jcl

/-! ## Programs -/

namespace Cobol

theorem Divisions.ofJson?_toJson (ds : Divisions) : Divisions.ofJson? ds.toJson = some ds := by
  obtain ⟨identification, environment, data, procedure⟩ := ds
  cases identification <;> cases environment <;> cases data <;> cases procedure <;> rfl

theorem Divisions.plain_toJson (ds : Divisions) (room : Nat) : Plain (room + 1) ds.toJson := by
  refine .object (fun m hm => ?_)
  obtain ⟨e, _, rfl⟩ := List.mem_map.1 hm
  exact .bool e.2

theorem programInfo?_json (programId : Option String) :
    programInfo? (programInfoJson programId) = some programId := by
  cases programId <;> rfl

theorem plain_programInfoJson (programId : Option String) (room : Nat) :
    Plain (room + 1) (programInfoJson programId) := by
  cases programId with
  | none => exact .object (fun m hm => absurd hm List.not_mem_nil)
  | some id =>
    refine .object (fun m hm => ?_)
    rw [List.mem_singleton.1 hm]
    exact .string id

theorem DataItem.ofJson?_toJson (v : DataItem) : DataItem.ofJson? v.toJson = some v := by
  have hslots := slots?_zip false ["level", "name", "picture"]
    [.string v.level, .string v.name, .string v.picture] (rfl : v.toJson = _) (by decide) rfl
  rw [DataItem.ofJson?, hslots]
  simp [required, string?]

theorem DataItem.plain_toJson (v : DataItem) (room : Nat) : Plain (room + 1) v.toJson := by
  refine .object (fun m hm => ?_)
  simp only [List.mem_cons, List.not_mem_nil, or_false] at hm
  rcases hm with rfl | rfl | rfl <;> exact .string _

theorem Paragraph.ofJson?_toJson (p : Paragraph) : Paragraph.ofJson? p.toJson = some p := by
  have hslots := slots?_zip false ["id", "name", "line"]
    [.string p.id, .string p.name, .natural p.line] (rfl : p.toJson = _) (by decide) rfl
  rw [Paragraph.ofJson?, hslots]
  simp [required, string?, natural?]

theorem Paragraph.plain_toJson {p : Paragraph} (hp : p.line ≤ maxNatural) (room : Nat) :
    Plain (room + 1) p.toJson := by
  refine .object (fun m hm => ?_)
  simp only [List.mem_cons, List.not_mem_nil, or_false] at hm
  rcases hm with rfl | rfl | rfl
  · exact .string _
  · exact .string _
  · exact .natural hp

/-- The fields of an action are found among the members of its record. -/
theorem Action.ofMembers?_of_subset {a : Action} {ms : List (String × Json)}
    (hnodup : (ms.map Prod.fst).Nodup) (h : ∀ m ∈ a.members, m ∈ ms) :
    Action.ofMembers? ms a.verb = some a := by
  have hfield : ∀ key s, (key, Json.string s) ∈ a.members → field key string? ms = some s :=
    fun key s hm => field_eq_of_mem string? hnodup (h _ hm)
  cases a with
  | display value => simp [Action.ofMembers?, verb, hfield "value" value (by simp [members])]
  | accept target => simp [Action.ofMembers?, verb, hfield "target" target (by simp [members])]
  | move source target =>
    simp [Action.ofMembers?, verb, hfield "from" source (by simp [members]),
      hfield "to" target (by simp [members])]
  | compute target expression =>
    simp [Action.ofMembers?, verb, hfield "target" target (by simp [members]),
      hfield "expression" expression (by simp [members])]
  | add operands result =>
    simp [Action.ofMembers?, verb, hfield "operands" operands (by simp [members]),
      hfield "result" result (by simp [members])]
  | multiply left right result =>
    simp [Action.ofMembers?, verb, hfield "left" left (by simp [members]),
      hfield "right" right (by simp [members]), hfield "result" result (by simp [members])]
  | stop => rfl

/-- The keys of a statement: its own three and those of its action. -/
theorem Statement.nodup_keys (s : Statement) :
    ((("id", Json.string s.id) :: ("line", .natural s.line)
      :: ("type", .string s.action.verb.name) :: s.action.members).map Prod.fst).Nodup := by
  cases s.action <;> simp [Action.members]

theorem Action.exists_string_of_mem {a : Action} {m : String × Json} (h : m ∈ a.members) :
    ∃ s, m.2 = .string s := by
  cases a <;> simp only [members, List.mem_cons, List.not_mem_nil, or_false] at h
  · exact ⟨_, by rw [h]⟩
  · exact ⟨_, by rw [h]⟩
  · rcases h with rfl | rfl <;> exact ⟨_, rfl⟩
  · rcases h with rfl | rfl <;> exact ⟨_, rfl⟩
  · rcases h with rfl | rfl <;> exact ⟨_, rfl⟩
  · rcases h with rfl | rfl | rfl <;> exact ⟨_, rfl⟩

theorem tag?_verb (v : Verb) : tag? Verb.all Verb.name (.string v.name) = some v := by
  cases v <;> rfl

theorem tag?_branchVerb (v : BranchVerb) :
    tag? BranchVerb.all BranchVerb.name (.string v.name) = some v := by
  cases v <;> rfl

/-- An id, a line, a type and texts fit wherever members do. -/
theorem othersFit_tagged {id name : String} {line : Nat} {texts : List (String × Json)}
    (h : ∀ m ∈ texts, ∃ s, m.2 = .string s) :
    othersFit (("id", .string id) :: ("line", .natural line) :: ("type", .string name) :: texts)
      = true := by
  refine membersFit_iff.2 (fun m hm => ?_)
  have hmem := (List.mem_filter.1 hm).1
  rcases List.mem_cons.1 hmem with rfl | hmem
  · rfl
  rcases List.mem_cons.1 hmem with rfl | hmem
  · rfl
  rcases List.mem_cons.1 hmem with rfl | hmem
  · rfl
  obtain ⟨s, hs⟩ := h m hmem
  rw [hs]
  rfl

theorem plain_tagged {id name : String} {line : Nat} {texts : List (String × Json)}
    (hline : line ≤ maxNatural) (h : ∀ m ∈ texts, ∃ s, m.2 = .string s) (room : Nat) :
    Plain (room + 1)
      (.object (("id", .string id) :: ("line", .natural line) :: ("type", .string name) :: texts))
    := by
  refine .object (fun m hm => ?_)
  rcases List.mem_cons.1 hm with rfl | hm
  · exact .string id
  rcases List.mem_cons.1 hm with rfl | hm
  · exact .natural hline
  rcases List.mem_cons.1 hm with rfl | hm
  · exact .string name
  obtain ⟨s, hs⟩ := h m hm
  rw [hs]
  exact .string s

/-- The id, the line and the type are found in a record with texts behind them. -/
theorem fields_tagged {α : Type} {id name : String} {line : Nat} {texts : List (String × Json)}
    (hnodup : ((("id", Json.string id) :: ("line", .natural line) :: ("type", .string name)
      :: texts).map Prod.fst).Nodup) (tag : Json → Option α) :
    let ms := ("id", Json.string id) :: ("line", .natural line) :: ("type", .string name) :: texts
    field "id" string? ms = some id ∧ field "line" natural? ms = some line ∧
      field "type" tag ms = tag (.string name) := by
  refine ⟨?_, ?_, ?_⟩
  · exact field_eq_of_mem string? hnodup (List.mem_cons_self ..)
  · exact field_eq_of_mem natural? hnodup (List.mem_cons_of_mem _ (List.mem_cons_self ..))
  · exact field_eq_of_mem tag hnodup
      (List.mem_cons_of_mem _ (List.mem_cons_of_mem _ (List.mem_cons_self ..)))

theorem Statement.ofJson?_toJson (s : Statement) : Statement.ofJson? s.toJson = some s := by
  have hnodup := s.nodup_keys
  have hfits := @othersFit_tagged s.id s.action.verb.name s.line s.action.members
    (fun m hm => Action.exists_string_of_mem hm)
  obtain ⟨hid, hline, htype⟩ := fields_tagged hnodup (tag? Verb.all Verb.name)
  have haction := Action.ofMembers?_of_subset hnodup (fun m hm =>
    List.mem_cons_of_mem _ (List.mem_cons_of_mem _ (List.mem_cons_of_mem _ hm)))
  rw [Statement.toJson, Statement.ofJson?, if_pos hfits, hid, hline, htype]
  simp [tag?_verb, haction]

theorem Branch.ofMembers?_of_subset {b : Branch} {ms : List (String × Json)}
    (hnodup : (ms.map Prod.fst).Nodup) (h : ∀ m ∈ b.members, m ∈ ms) :
    Branch.ofMembers? ms b.verb = some b := by
  have hfield : ∀ key s, (key, Json.string s) ∈ b.members → field key string? ms = some s :=
    fun key s hm => field_eq_of_mem string? hnodup (h _ hm)
  cases b with
  | conditional condition =>
    simp [Branch.ofMembers?, verb, hfield "condition" condition (by simp [members])]
  | perform target => simp [Branch.ofMembers?, verb, hfield "target" target (by simp [members])]
  | evaluate expression =>
    simp [Branch.ofMembers?, verb, hfield "expression" expression (by simp [members])]
  | goTo target => simp [Branch.ofMembers?, verb, hfield "target" target (by simp [members])]

theorem ControlFlow.nodup_keys (c : ControlFlow) :
    ((("id", Json.string c.id) :: ("line", .natural c.line)
      :: ("type", .string c.branch.verb.name) :: c.branch.members).map Prod.fst).Nodup := by
  cases c.branch <;> simp [Branch.members]

theorem Branch.exists_string_of_mem {b : Branch} {m : String × Json} (h : m ∈ b.members) :
    ∃ s, m.2 = .string s := by
  cases b <;> rw [members, List.mem_singleton] at h <;> exact ⟨_, by rw [h]⟩

theorem ControlFlow.ofJson?_toJson (c : ControlFlow) : ControlFlow.ofJson? c.toJson = some c := by
  have hnodup := c.nodup_keys
  have hfits := @othersFit_tagged c.id c.branch.verb.name c.line c.branch.members
    (fun m hm => Branch.exists_string_of_mem hm)
  obtain ⟨hid, hline, htype⟩ := fields_tagged hnodup (tag? BranchVerb.all BranchVerb.name)
  have hbranch := Branch.ofMembers?_of_subset hnodup (fun m hm =>
    List.mem_cons_of_mem _ (List.mem_cons_of_mem _ (List.mem_cons_of_mem _ hm)))
  rw [ControlFlow.toJson, ControlFlow.ofJson?, if_pos hfits, hid, hline, htype]
  simp [tag?_branchVerb, hbranch]

theorem FileOperation.ofJson?_toJson (f : FileOperation) :
    FileOperation.ofJson? f.toJson = some f := by
  have hslots := slots?_zip false ["operation", "line"]
    [.string f.verb.keyword, .natural f.line] (rfl : f.toJson = _) (by decide) rfl
  rw [FileOperation.ofJson?, hslots]
  simp [required, natural?, keyword?, FileVerb.ofKeyword?_keyword]

theorem FileOperation.plain_toJson {f : FileOperation} (hf : f.line ≤ maxNatural) (room : Nat) :
    Plain (room + 1) f.toJson := by
  refine .object (fun m hm => ?_)
  simp only [List.mem_cons, List.not_mem_nil, or_false] at hm
  rcases hm with rfl | rfl
  · exact .string _
  · exact .natural hf

theorem Perform.ofJson?_toJson (p : Perform) : Perform.ofJson? p.toJson = some p := by
  have hslots := slots?_zip false ["id", "target", "line"]
    [.string p.id, .string p.target, .natural p.line] (rfl : p.toJson = _) (by decide) rfl
  rw [Perform.ofJson?, hslots]
  simp [required, string?, natural?]

theorem Perform.plain_toJson {p : Perform} (hp : p.line ≤ maxNatural) (room : Nat) :
    Plain (room + 1) p.toJson := by
  refine .object (fun m hm => ?_)
  simp only [List.mem_cons, List.not_mem_nil, or_false] at hm
  rcases hm with rfl | rfl | rfl
  · exact .string _
  · exact .string _
  · exact .natural hp

/-- Every line number of the outline is in the range of a 64-bit count. -/
structure Outline.LinesFit (o : Outline) : Prop where
  paragraphs : ∀ p ∈ o.paragraphs, p.line ≤ maxNatural
  statements : ∀ s ∈ o.statements, s.line ≤ maxNatural
  controlFlow : ∀ c ∈ o.controlFlow, c.line ≤ maxNatural
  fileOperations : ∀ f ∈ o.fileOperations, f.line ≤ maxNatural
  performs : ∀ p ∈ o.performs, p.line ≤ maxNatural

theorem Outline.ofJson?_toJson (o : Outline) : Outline.ofJson? o.toJson = some o := by
  have hslots := slots?_zip true outlineFields
    [programInfoJson o.programId, o.divisions.toJson, .ofList DataItem.toJson o.dataItems,
      .ofList Paragraph.toJson o.paragraphs, .ofList Statement.toJson o.statements,
      .ofList ControlFlow.toJson o.controlFlow, .ofList .string o.conditions,
      .ofList FileOperation.toJson o.fileOperations, .ofList Perform.toJson o.performs,
      .ofList .string o.warnings] (rfl : o.toJson = _) (by decide) rfl
  rw [Outline.ofJson?, hslots]
  simp [required, programInfo?_json, Divisions.ofJson?_toJson, list?_strings,
    list?_ofList DataItem.ofJson?_toJson, list?_ofList Paragraph.ofJson?_toJson,
    list?_ofList Statement.ofJson?_toJson, list?_ofList ControlFlow.ofJson?_toJson,
    list?_ofList FileOperation.ofJson?_toJson, list?_ofList Perform.ofJson?_toJson]

theorem Outline.plain_toJson {o : Outline} (ho : o.LinesFit) (room : Nat) :
    Plain (room + 3) o.toJson := by
  refine .object (fun m hm => ?_)
  simp only [List.mem_cons, List.not_mem_nil, or_false] at hm
  rcases hm with rfl | rfl | rfl | rfl | rfl | rfl | rfl | rfl | rfl | rfl
  · exact plain_programInfoJson _ _
  · exact o.divisions.plain_toJson _
  · exact plain_ofList (fun v _ => v.plain_toJson room)
  · exact plain_ofList (fun p hp => Paragraph.plain_toJson (ho.paragraphs p hp) room)
  · exact plain_ofList (fun s hs =>
      plain_tagged (ho.statements s hs) (fun m hm => Action.exists_string_of_mem hm) room)
  · exact plain_ofList (fun c hc =>
      plain_tagged (ho.controlFlow c hc) (fun m hm => Branch.exists_string_of_mem hm) room)
  · exact plain_strings _
  · exact plain_ofList (fun f hf => FileOperation.plain_toJson (ho.fileOperations f hf) room)
  · exact plain_ofList (fun p hp => Perform.plain_toJson (ho.performs p hp) room)
  · exact plain_strings _

/-- A written program is no written deck. -/
theorem Outline.not_deck (o : Outline) : Jcl.Outline.ofJson? o.toJson = none := by
  have hforeign : slots? true Jcl.outlineFields o.toJson = none :=
    slots?_of_foreign (List.mem_cons_self ..) (by simp [Jcl.outlineFields])
  rw [Jcl.Outline.ofJson?, hforeign]
  rfl

end Cobol

/-! ## Outlines of either language -/

/-- Every line number of the outline is in the range of a 64-bit count. A deck
has none. -/
def Outline.LinesFit : Outline → Prop
  | .cobol program => program.LinesFit
  | .jcl _ => True

theorem Outline.ofJson?_toJson (o : Outline) : Outline.ofJson? o.toJson = some o := by
  cases o with
  | cobol program =>
    -- a deck is looked for first
    rw [toJson, ofJson?, program.not_deck, program.ofJson?_toJson]
    rfl
  | jcl deck => rw [toJson, ofJson?, deck.ofJson?_toJson]

theorem Outline.plain_toJson {o : Outline} (ho : o.LinesFit) : Plain 5 o.toJson := by
  cases o with
  | cobol program => exact Cobol.Outline.plain_toJson ho 2
  | jcl deck => exact deck.plain_toJson 0

end Mainframe
