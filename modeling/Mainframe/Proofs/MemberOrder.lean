import Mathlib.Data.List.Forall2
import Mathlib.Logic.Relation
import Mainframe.Outline
import Mainframe.Proofs.WrittenRecord

/-
  The order of the members of an object.

  A record is decoded field by field, and each field is looked for by its key, so
  nothing depends on where a member stands: neither the tag of a statement, nor a
  member that is passed over, nor one that is repeated where it must not be. Only
  the marks of the divisions are taken from left to right, the last mark of a
  division winning, so their order counts if one of them is repeated.

  What is proved:
    1. `Reorders.atMostOnce` and `Reorders.slots?`: what is found for a key and
       for the fields of a record, when members change their places.
    2. `blind_slots?`: so a record is decoded blindly if its fields are.
    3. `foldlM_addMember_perm`: marks of different divisions may be read in any
       order.
    4. `Outline.decode_reordered`: the outcome of decoding an outline does not
       depend on the order of any members, as long as no division is repeated.
-/

namespace Mainframe

namespace Json

/-! ## Values with members in another order -/

/-- The second value is the first one with the members of one of its objects, at
any depth, in another order. -/
inductive Reorders : Json → Json → Prop where
  | here {ms ms' : List (String × Json)} (h : ms.Perm ms') : Reorders (.object ms) (.object ms')
  | item {before after : List Json} {v v' : Json} (h : Reorders v v') :
      Reorders (.array (before ++ v :: after)) (.array (before ++ v' :: after))
  | member {before after : List (String × Json)} {key : String} {v v' : Json}
      (h : Reorders v v') :
      Reorders (.object (before ++ (key, v) :: after)) (.object (before ++ (key, v') :: after))

/-- The second value is the first one with the members of any of its objects, at
any depth, in another order. -/
def Reordered : Json → Json → Prop := Relation.ReflTransGen Reorders

/-- The values are the same, or one object in them differs in the order of its
members. -/
def Alike (v v' : Json) : Prop := v = v' ∨ Reorders v v'

/-- Nothing is found for a field in both cases, or values that are alike. -/
def SlotsAlike : Option Json → Option Json → Prop := Option.Rel Alike

theorem Reorders.symm {v v' : Json} (h : Reorders v v') : Reorders v' v := by
  induction h with
  | here h => exact .here h.symm
  | item _ ih => exact .item ih
  | member _ ih => exact .member ih

theorem Alike.refl (v : Json) : Alike v v := .inl rfl

theorem Alike.symm {v v' : Json} (h : Alike v v') : Alike v' v :=
  h.imp Eq.symm Reorders.symm

/-- Members that change their places keep their keys and their values, up to the
order in these. -/
theorem Reorders.exists_member {ms ms' : List (String × Json)}
    (h : Reorders (.object ms) (.object ms')) :
    ∀ m ∈ ms, ∃ m' ∈ ms', m'.1 = m.1 ∧ Alike m.2 m'.2 := by
  intro m hm
  cases h with
  | here h => exact ⟨m, h.subset hm, rfl, .refl _⟩
  | member h =>
    rcases List.mem_append.1 hm with hm | hm
    · exact ⟨m, List.mem_append_left _ hm, rfl, .refl _⟩
    · rcases List.mem_cons.1 hm with rfl | hm
      · exact ⟨_, List.mem_append_right _ List.mem_cons_self, rfl, .inr h⟩
      · exact ⟨m, List.mem_append_right _ (List.mem_cons_of_mem _ hm), rfl, .refl _⟩

theorem Reorders.items {items items' : List Json} (h : Reorders (.array items) (.array items')) :
    List.Forall₂ Alike items items' := by
  cases h with
  | @item before after v v' h =>
    induction before with
    | nil => exact .cons (.inr h) (List.forall₂_same.2 fun w _ => .refl w)
    | cons w before ih => exact .cons (.refl w) ih

/-! ## What is found for a key -/

theorem Reorders.keys {ms ms' : List (String × Json)} (h : Reorders (.object ms) (.object ms')) :
    (ms.map Prod.fst).Perm (ms'.map Prod.fst) := by
  cases h with
  | here h => exact h.map Prod.fst
  | member h => simp

theorem Reorders.atMostOnce {ms ms' : List (String × Json)}
    (h : Reorders (.object ms) (.object ms')) (key : String) :
    Option.Rel SlotsAlike (atMostOnce key ms) (atMostOnce key ms') := by
  have hsame : ∀ found : Option (Option Json), Option.Rel SlotsAlike found found := by
    rintro (_ | _ | v)
    · exact .none
    · exact .some .none
    · exact .some (.some (.refl v))
  cases h with
  | here h =>
    rw [atMostOnce_perm h]
    exact hsame _
  | @member before after other v v' h =>
    have hnamed : ∀ w, named key (before ++ (other, w) :: after) =
        named key before ++ ((if other == key then [w] else []) ++ named key after) := by
      intro w
      simp only [named, List.filter_append, List.filter_cons, List.map_append]
      split <;> rfl
    simp only [Json.atMostOnce, hnamed]
    cases other == key with
    | false => exact hsame _
    | true =>
      -- the member is found if no other one has its key, and otherwise nothing is
      cases named key before with
      | nil =>
        cases named key after with
        | nil => exact .some (.some (.inr h))
        | cons _ _ => exact .none
      | cons _ before => cases before <;> exact .none

theorem mem_named_of_atMostOnce {key : String} {value : Json} {ms : List (String × Json)}
    (h : Json.atMostOnce key ms = some (some value)) : value ∈ named key ms := by
  rw [named_of_atMostOnce h]
  exact List.mem_singleton_self value

/-! ## Fields of a record -/

theorem bind_rel {α β γ δ : Type} {r : α → β → Prop} {q : γ → δ → Prop} {a : Option α}
    {b : Option β} {f : α → Option γ} {g : β → Option δ} (h : Option.Rel r a b)
    (hfg : ∀ a b, r a b → Option.Rel q (f a) (g b)) : Option.Rel q (a.bind f) (b.bind g) := by
  cases h with
  | none => exact .none
  | some hab => exact hfg _ _ hab

theorem bind_eq_of_rel {α β γ : Type} {r : α → β → Prop} {a : Option α} {b : Option β}
    {f : α → Option γ} {g : β → Option γ} (h : Option.Rel r a b)
    (hfg : ∀ a b, r a b → f a = g b) : a.bind f = b.bind g := by
  cases h with
  | none => rfl
  | some hab => exact hfg _ _ hab

theorem mapM_rel {α β : Type} {r : β → β → Prop} {f g : α → Option β}
    (h : ∀ a, Option.Rel r (f a) (g a)) (as : List α) :
    Option.Rel (List.Forall₂ r) (as.mapM f) (as.mapM g) := by
  induction as with
  | nil => exact .some .nil
  | cons a as ih =>
    rw [List.mapM_cons, List.mapM_cons]
    exact bind_rel (h a) fun _ _ hb => bind_rel ih fun _ _ hbs => .some (.cons hb hbs)

/-- Fields are found in the same places, whatever the order of the members. -/
theorem Reorders.slots? {v v' : Json} (h : Reorders v v') (isClosed : Bool)
    (names : List String) :
    Option.Rel (List.Forall₂ SlotsAlike) (slots? isClosed names v) (slots? isClosed names v') := by
  have hobject : ∀ ms ms', Reorders (.object ms) (.object ms') →
      Option.Rel (List.Forall₂ SlotsAlike) (Json.slots? isClosed names (.object ms))
        (Json.slots? isClosed names (.object ms')) := by
    intro ms ms' h
    have hall : ms.all (fun m => names.contains m.1) = ms'.all (fun m => names.contains m.1) := by
      have hkeys := h.keys.all_eq (f := names.contains)
      rwa [List.all_map, List.all_map] at hkeys
    rw [Json.slots?, Json.slots?, hall]
    split
    next => exact .none
    next => exact mapM_rel h.atMostOnce names
  cases h with
  | here h => exact hobject _ _ (.here h)
  | member h => exact hobject _ _ (.member h)
  | @item before after v v' h =>
    have hlength : (before ++ v :: after).length = (before ++ v' :: after).length := by simp
    rw [Json.slots?, Json.slots?, hlength]
    split
    next =>
      refine .some (List.forall₂_map_left_iff.2 (List.forall₂_map_right_iff.2 ?_))
      exact (Reorders.items (.item h)).imp fun _ _ hw => .some hw
    next => exact .none

/-! ## Decoders -/

/-- The result does not depend on the order of any members. -/
def Blind {β : Type} (decode : Json → β) : Prop := ∀ v v', Reorders v v' → decode v = decode v'

theorem Blind.alike {β : Type} {decode : Json → β} (hd : Blind decode) {v v' : Json}
    (h : Alike v v') : decode v = decode v' := by
  rcases h with rfl | h
  · rfl
  · exact hd v v' h

section
variable {α : Type} {decode : Json → Option α}

theorem SlotsAlike.required (hd : Blind decode) {slot slot' : Option Json}
    (h : SlotsAlike slot slot') : required decode slot = required decode slot' := by
  cases h with
  | none => rfl
  | some h => exact hd.alike h

theorem SlotsAlike.optional (hd : Blind decode) {slot slot' : Option Json}
    (h : SlotsAlike slot slot') : optional decode slot = optional decode slot' := by
  rcases h with h | _
  · rcases h with rfl | h
    · rfl
    · -- neither value is null
      have hdecode := hd _ _ h
      cases h <;> simp only [Json.optional, hdecode]
  · rfl

theorem Reorders.field (hd : Blind decode) {ms ms' : List (String × Json)}
    (h : Reorders (.object ms) (.object ms')) (key : String) :
    field key decode ms = field key decode ms' := by
  exact bind_eq_of_rel (h.atMostOnce key) fun _ _ hslot => hslot.required hd

/-- A record is decoded blindly if what is made of its fields does not depend on
the order of any members in them. -/
theorem blind_slots? {isClosed : Bool} {names : List String}
    {body : List (Option Json) → Option α}
    (hbody : ∀ slots slots', List.Forall₂ SlotsAlike slots slots' → body slots = body slots') :
    Blind (fun v => (slots? isClosed names v).bind body) :=
  fun _ _ h => bind_eq_of_rel (h.slots? isClosed names) hbody

theorem blind_list? (hd : Blind decode) : Blind (list? decode) := by
  intro v v' h
  cases h with
  | here _ => rfl
  | item h =>
    have hdecode := hd _ _ h
    simp only [list?, List.mapM_append, List.mapM_cons, hdecode]
  | member _ => rfl

end

/-! ## Scalars and depth -/

theorem blind_string? : Blind string? := by
  intro v v' h
  cases h <;> rfl

theorem blind_bool? : Blind bool? := by
  intro v v' h
  cases h <;> rfl

theorem blind_natural? : Blind natural? := by
  intro v v' h
  cases h <;> rfl

theorem blind_tag? {α : Type} (all : List α) (name : α → String) : Blind (tag? all name) := by
  intro v v' h
  cases h <;> rfl

/-- An object whose only value is null has no other order. -/
theorem Reorders.eq_of_null {key : String} {v : Json} (h : Reorders (.object [(key, .null)]) v) :
    v = .object [(key, .null)] := by
  generalize hms : [(key, Json.null)] = ms at h
  cases h with
  | here h =>
    subst hms
    rw [List.perm_singleton.1 h.symm]
  | @member before after other w _ h =>
    -- the value that has another order would be null
    have hmem : (other, w) ∈ [(key, Json.null)] := by
      rw [hms]
      exact List.mem_append_right before List.mem_cons_self
    obtain ⟨-, rfl⟩ := Prod.mk.inj (List.mem_singleton.1 hmem)
    cases h

theorem blind_keyword? {α : Type} (ofName : String → Option α) : Blind (keyword? ofName) := by
  have hnone : ∀ {v v'}, Reorders v v' → (∀ key, v ≠ .object [(key, .null)]) →
      keyword? ofName v = none := by
    intro v v' h hv
    unfold keyword?
    split
    next => cases h
    next => exact absurd rfl (hv _)
    next => rfl
  intro v v' h
  by_cases hv : ∃ key, v = .object [(key, .null)]
  · obtain ⟨key, rfl⟩ := hv
    rw [h.eq_of_null]
  · rw [hnone h (fun key hkey => hv ⟨key, hkey⟩), hnone h.symm]
    rintro key rfl
    exact hv ⟨key, h.symm.eq_of_null⟩

theorem itemsFit_eq_all (room : Nat) (items : List Json) :
    itemsFit room items = items.all (fits room) := by
  rw [Bool.eq_iff_iff, itemsFit_iff, List.all_eq_true]

theorem membersFit_eq_all (room : Nat) (ms : List (String × Json)) :
    membersFit room ms = ms.all (fun m => fits room m.2) := by
  rw [Bool.eq_iff_iff, membersFit_iff, List.all_eq_true]

theorem blind_fits (room : Nat) : Blind (fits room) := by
  intro v v' h
  induction h generalizing room with
  | here h => rw [fits, fits, membersFit_eq_all, membersFit_eq_all, h.all_eq]
  | item _ ih =>
    simp only [fits, itemsFit_eq_all, List.all_append, List.all_cons, ih]
  | member _ ih =>
    simp only [fits, membersFit_eq_all, List.all_append, List.all_cons, ih]

end Json

open Json

/-! ## Job decks -/

namespace Jcl

theorem Job.blind : Blind Job.ofJson? := by
  apply blind_slots?
  intro slots slots' h
  rcases h with _ | ⟨h₁, _ | ⟨h₂, _ | ⟨h₃, _ | ⟨h₄, _ | ⟨h₅, _ | _⟩⟩⟩⟩⟩
  case cons.cons.cons.cons.cons.nil =>
    simp only [h₁.required blind_string?, h₂.optional blind_string?, h₃.optional blind_string?,
      h₄.optional blind_string?, h₅.required blind_string?]
  all_goals rfl

theorem blind_jobOrNone? : Blind jobOrNone? := by
  intro v v' h
  unfold jobOrNone?
  rw [Job.blind v v' h]
  cases Job.ofJson? v' <;> cases h <;> rfl

theorem blind_job? : Blind job? := by
  intro v v' h
  have hfits := blind_fits roomInJob v v' h
  have hjob := blind_jobOrNone? v v' h
  cases h <;> simp only [job?, hfits, hjob]

theorem DataDefinition.blind : Blind DataDefinition.ofJson? := by
  apply blind_slots?
  intro slots slots' h
  rcases h with _ | ⟨h₁, _ | ⟨h₂, _ | ⟨h₃, _ | ⟨h₄, _ | ⟨h₅, _ | _⟩⟩⟩⟩⟩
  case cons.cons.cons.cons.cons.nil =>
    simp only [h₁.required blind_string?, h₂.optional blind_string?, h₃.optional blind_string?,
      h₄.required (blind_keyword? _), h₅.required blind_string?]
  all_goals rfl

theorem Step.blind : Blind Step.ofJson? := by
  apply blind_slots?
  intro slots slots' h
  rcases h with _ | ⟨h₁, _ | ⟨h₂, _ | ⟨h₃, _ | ⟨h₄, _ | ⟨h₅, _ | ⟨h₆, _ | _⟩⟩⟩⟩⟩⟩
  case cons.cons.cons.cons.cons.cons.nil =>
    simp only [h₁.required blind_string?, h₂.optional blind_string?, h₃.optional blind_string?,
      h₄.optional blind_string?, h₅.required (blind_list? DataDefinition.blind),
      h₆.required blind_string?]
  all_goals rfl

theorem Outline.blind : Blind Outline.ofJson? := by
  apply blind_slots?
  intro slots slots' h
  rcases h with _ | ⟨h₁, _ | ⟨h₂, _ | ⟨h₃, _ | ⟨h₄, _ | _⟩⟩⟩⟩
  case cons.cons.cons.cons.nil =>
    simp only [h₁.required blind_job?, h₂.required (blind_list? Step.blind),
      h₃.required (blind_list? blind_string?), h₄.required (blind_list? blind_string?)]
  all_goals rfl

end Jcl

/-! ## Programs -/

namespace Cobol

theorem blind_programInfo? : Blind programInfo? := by
  intro v v' h
  have hobject : ∀ ms ms', Reorders (.object ms) (.object ms') →
      programInfo? (.object ms) = programInfo? (.object ms') := fun _ _ h =>
    bind_eq_of_rel (h.atMostOnce "program_id") fun _ _ hslot => hslot.optional blind_string?
  cases h with
  | here h => exact hobject _ _ (.here h)
  | member h => exact hobject _ _ (.member h)
  | @item before after w w' h =>
    have hitems : List.Forall₂ Alike (before ++ w :: after) (before ++ w' :: after) :=
      (Reorders.item h).items
    revert hitems
    generalize before ++ w :: after = items
    generalize before ++ w' :: after = items'
    rintro (_ | ⟨hid, _ | ⟨_, _⟩⟩)
    · rfl
    · exact SlotsAlike.optional blind_string? (.some hid)
    · rfl

theorem DataItem.blind : Blind DataItem.ofJson? := by
  apply blind_slots?
  intro slots slots' h
  rcases h with _ | ⟨h₁, _ | ⟨h₂, _ | ⟨h₃, _ | _⟩⟩⟩
  case cons.cons.cons.nil =>
    simp only [h₁.required blind_string?, h₂.required blind_string?, h₃.required blind_string?]
  all_goals rfl

theorem Paragraph.blind : Blind Paragraph.ofJson? := by
  apply blind_slots?
  intro slots slots' h
  rcases h with _ | ⟨h₁, _ | ⟨h₂, _ | ⟨h₃, _ | _⟩⟩⟩
  case cons.cons.cons.nil =>
    simp only [h₁.required blind_string?, h₂.required blind_string?, h₃.required blind_natural?]
  all_goals rfl

theorem FileOperation.blind : Blind FileOperation.ofJson? := by
  apply blind_slots?
  intro slots slots' h
  rcases h with _ | ⟨h₁, _ | ⟨h₂, _ | _⟩⟩
  case cons.cons.nil =>
    simp only [h₁.required (blind_keyword? _), h₂.required blind_natural?]
  all_goals rfl

theorem Perform.blind : Blind Perform.ofJson? := by
  apply blind_slots?
  intro slots slots' h
  rcases h with _ | ⟨h₁, _ | ⟨h₂, _ | ⟨h₃, _ | _⟩⟩⟩
  case cons.cons.cons.nil =>
    simp only [h₁.required blind_string?, h₂.required blind_string?, h₃.required blind_natural?]
  all_goals rfl

section
variable {ms ms' : List (String × Json)} (h : Reorders (.object ms) (.object ms'))
include h

theorem othersFit_reordered : othersFit ms = othersFit ms' := by
  have hhalf : ∀ ms ms', Reorders (.object ms) (.object ms') → othersFit ms' = true →
      othersFit ms = true := by
    intro ms ms' h hfit
    rw [othersFit, membersFit_iff] at hfit ⊢
    intro m hm
    obtain ⟨hm, hother⟩ := List.mem_filter.1 hm
    obtain ⟨m', hm', hkey, hvalue⟩ := h.exists_member m hm
    rw [(blind_fits roomInRecord).alike hvalue]
    exact hfit m' (List.mem_filter.2 ⟨hm', hkey ▸ hother⟩)
  exact Bool.eq_iff_iff.2 ⟨hhalf _ _ h.symm, hhalf _ _ h⟩

theorem Action.ofMembers?_reordered (verb : Verb) :
    Action.ofMembers? ms verb = Action.ofMembers? ms' verb := by
  have hfield := h.field blind_string?
  cases verb <;> simp only [Action.ofMembers?, hfield]

theorem Branch.ofMembers?_reordered (verb : BranchVerb) :
    Branch.ofMembers? ms verb = Branch.ofMembers? ms' verb := by
  have hfield := h.field blind_string?
  cases verb <;> simp only [Branch.ofMembers?, hfield]

theorem Statement.ofJson?_reordered :
    Statement.ofJson? (.object ms) = Statement.ofJson? (.object ms') := by
  simp only [Statement.ofJson?, othersFit_reordered h, h.field blind_string?,
    h.field blind_natural?, h.field (blind_tag? _ _), Action.ofMembers?_reordered h]

theorem ControlFlow.ofJson?_reordered :
    ControlFlow.ofJson? (.object ms) = ControlFlow.ofJson? (.object ms') := by
  simp only [ControlFlow.ofJson?, othersFit_reordered h, h.field blind_string?,
    h.field blind_natural?, h.field (blind_tag? _ _), Branch.ofMembers?_reordered h]

end

theorem Statement.blind : Blind Statement.ofJson? := by
  intro v v' h
  cases h with
  | here h => exact Statement.ofJson?_reordered (.here h)
  | item _ => rfl
  | member h => exact Statement.ofJson?_reordered (.member h)

theorem ControlFlow.blind : Blind ControlFlow.ofJson? := by
  intro v v' h
  cases h with
  | here h => exact ControlFlow.ofJson?_reordered (.here h)
  | item _ => rfl
  | member h => exact ControlFlow.ofJson?_reordered (.member h)

/-! ## Divisions -/

theorem Division.key_of_ofKey? {name : String} {d : Division} (h : ofKey? name = some d) :
    d.key = name := by
  have hkey := List.find?_some h
  exact eq_of_beq hkey

theorem Divisions.set_comm {d e : Division} (hne : d ≠ e) (ds : Divisions) (mark mark' : Bool) :
    (ds.set mark d).set mark' e = (ds.set mark' e).set mark d := by
  cases d <;> cases e <;> first | rfl | exact absurd rfl hne

theorem Divisions.addMember_comm {a b : String × Json} (hne : a.1 ≠ b.1) (ds : Divisions) :
    (ds.addMember a).bind (fun ds => ds.addMember b) =
      (ds.addMember b).bind (fun ds => ds.addMember a) := by
  unfold addMember
  cases hd : Division.ofKey? a.1 with
  | none => cases Division.ofKey? b.1 <;> cases bool? b.2 <;> rfl
  | some d =>
    cases he : Division.ofKey? b.1 with
    | none => cases bool? a.2 <;> rfl
    | some e =>
      have hdivision : d ≠ e := by
        rintro rfl
        exact hne ((Division.key_of_ofKey? hd).symm.trans (Division.key_of_ofKey? he))
      cases bool? a.2 with
      | none => cases bool? b.2 <;> rfl
      | some mark =>
        cases bool? b.2 with
        | none => rfl
        | some mark' => exact congrArg some (set_comm hdivision ds mark mark')

/-- Marks of different divisions may be read in any order. -/
theorem Divisions.foldlM_addMember_perm {ms ms' : List (String × Json)} (h : ms.Perm ms')
    (hkeys : (ms.map Prod.fst).Nodup) (ds : Divisions) :
    ms.foldlM addMember ds = ms'.foldlM addMember ds := by
  induction h generalizing ds with
  | nil => rfl
  | cons m _ ih =>
    rw [List.map_cons, List.nodup_cons] at hkeys
    simp only [List.foldlM_cons, ih hkeys.2]
  | swap a b ms =>
    have hne : b.1 ≠ a.1 := by
      intro heq
      simp [heq] at hkeys
    simp only [List.foldlM_cons, ← bind_assoc]
    exact congrArg (fun ds => ds.bind (fun ds => ms.foldlM addMember ds)) (addMember_comm hne ds)
  | trans h _ ih ih' =>
    rw [ih hkeys, ih' ((h.map Prod.fst).nodup_iff.1 hkeys)]

/-- No key of the value is repeated, if it is an object. -/
def DistinctKeys : Json → Prop
  | .object ms => (ms.map Prod.fst).Nodup
  | _ => True

/-- The values that stand for the divisions in the record of a program. -/
def divisionsIn : Json → List Json
  | .object ms => named "divisions" ms
  | .array items => if items.length = outlineFields.length then items[1]?.toList else []
  | _ => []

/-- No division is repeated in the record of a program. -/
def DistinctDivisions (v : Json) : Prop := ∀ d ∈ divisionsIn v, DistinctKeys d

theorem Divisions.ofJson?_alike {v v' : Json} (h : Alike v v') (hkeys : DistinctKeys v) :
    Divisions.ofJson? v = Divisions.ofJson? v' := by
  rcases h with rfl | h
  · rfl
  · cases h with
    | here h => exact foldlM_addMember_perm h hkeys .empty
    | item _ => rfl
    | member h =>
      have hmark := blind_bool? _ _ h
      simp only [ofJson?, List.foldlM_append, List.foldlM_cons, addMember, hmark]

theorem required_divisions_alike {slot slot' : Option Json} (h : SlotsAlike slot slot')
    (hkeys : ∀ d, slot = some d → DistinctKeys d) :
    required Divisions.ofJson? slot = required Divisions.ofJson? slot' := by
  cases h with
  | none => rfl
  | some h => exact Divisions.ofJson?_alike h (hkeys _ rfl)

theorem DistinctKeys.alike {v v' : Json} (h : Alike v v') (hkeys : DistinctKeys v) :
    DistinctKeys v' := by
  rcases h with rfl | h
  · exact hkeys
  · cases h with
    | here h => exact (Reorders.here h).keys.nodup_iff.1 hkeys
    | item _ => trivial
    | member h => exact (Reorders.member h).keys.nodup_iff.1 hkeys

/-- The divisions stay the same, up to the order in them. -/
theorem exists_divisionsIn {v v' : Json} (h : Reorders v v') :
    ∀ d' ∈ divisionsIn v', ∃ d ∈ divisionsIn v, Alike d d' := by
  intro d' hd'
  have hobject : ∀ ms ms', Reorders (.object ms) (.object ms') → d' ∈ divisionsIn (.object ms') →
      ∃ d ∈ divisionsIn (.object ms), Alike d d' := by
    intro ms ms' h hd'
    obtain ⟨m', hm', rfl⟩ := List.mem_map.1 hd'
    obtain ⟨hm', hkey'⟩ := List.mem_filter.1 hm'
    obtain ⟨m, hm, hkey, hvalue⟩ := h.symm.exists_member m' hm'
    exact ⟨m.2, List.mem_map.2 ⟨m, List.mem_filter.2 ⟨hm, hkey ▸ hkey'⟩, rfl⟩, hvalue.symm⟩
  cases h with
  | here h => exact hobject _ _ (.here h) hd'
  | member h => exact hobject _ _ (.member h) hd'
  | @item before after w w' h =>
    have hitems : List.Forall₂ Alike (before ++ w :: after) (before ++ w' :: after) :=
      (Reorders.item h).items
    revert hd' hitems
    generalize before ++ w :: after = items
    generalize before ++ w' :: after = items'
    intro hd' hitems
    rw [divisionsIn, ← hitems.length_eq] at hd'
    rw [divisionsIn]
    split at hd'
    next hlength =>
      rw [if_pos hlength]
      rcases hitems with _ | ⟨_, _ | ⟨hw, _⟩⟩
      · cases hd'
      · cases hd'
      · rw [List.mem_singleton.1 hd']
        exact ⟨_, List.mem_singleton_self _, hw⟩
    next => cases hd'

/-- Members that change their places repeat no division that was not repeated. -/
theorem DistinctDivisions.reorders {v v' : Json} (h : Reorders v v') (hd : DistinctDivisions v) :
    DistinctDivisions v' := by
  intro d' hd'
  obtain ⟨d, hmem, halike⟩ := exists_divisionsIn h d' hd'
  exact (hd d hmem).alike halike

/-- What is found for the divisions of a program stands for them. -/
theorem mem_divisionsIn_of_slots? {v d : Json} {info : Option Json} {slots : List (Option Json)}
    (h : slots? true outlineFields v = some (info :: some d :: slots)) : d ∈ divisionsIn v := by
  cases v with
  | object ms =>
    simp only [slots?] at h
    split at h
    next => cases h
    next =>
      have hfound : atMostOnce "divisions" ms = some (some d) := by
        rw [outlineFields, List.mapM_cons, List.mapM_cons] at h
        simp only [Option.pure_def, Option.bind_eq_bind, Option.bind_eq_some_iff, Option.some.injEq,
          List.cons.injEq] at h
        obtain ⟨_, -, _, ⟨_, hfound, _, -, rfl⟩, -, hslots⟩ := h
        rw [hfound, (List.cons.inj hslots).1]
      exact mem_named_of_atMostOnce hfound
  | array items =>
    simp only [slots?] at h
    split at h
    next hlength =>
      obtain ⟨first, behind, rfl, -, hbehind⟩ := List.map_eq_cons_iff.1 (Option.some.inj h)
      obtain ⟨second, others, rfl, hsecond, -⟩ := List.map_eq_cons_iff.1 hbehind
      rw [divisionsIn, if_pos hlength, ← Option.some.inj hsecond]
      exact List.mem_singleton_self second
    next => cases h
  | _ => cases h

theorem Outline.ofJson?_reorders {v v' : Json} (h : Reorders v v') (hd : DistinctDivisions v) :
    Outline.ofJson? v = Outline.ofJson? v' := by
  have hkeys : ∀ info d slots, slots? true outlineFields v = some (info :: some d :: slots) →
      DistinctKeys d := fun _ d _ hslots => hd d (mem_divisionsIn_of_slots? hslots)
  have hslots := h.slots? true outlineFields
  unfold Outline.ofJson?
  revert hkeys hslots
  generalize slots? true outlineFields v = found
  generalize slots? true outlineFields v' = found'
  rintro hkeys (hslots | _)
  · rcases hslots with _ | ⟨h₁, _ | ⟨h₂, _ | ⟨h₃, _ | ⟨h₄, _ | ⟨h₅, _ | ⟨h₆, _ | ⟨h₇, _ | ⟨h₈,
      _ | ⟨h₉, _ | ⟨h₁₀, _ | _⟩⟩⟩⟩⟩⟩⟩⟩⟩⟩
    case some.cons.cons.cons.cons.cons.cons.cons.cons.cons.cons.nil =>
      have hdivisions := required_divisions_alike h₂ (fun d hd => by
        subst hd
        exact hkeys _ d _ rfl)
      simp only [Option.bind_eq_bind, Option.bind_some, h₁.required blind_programInfo?, hdivisions,
        h₃.required (blind_list? DataItem.blind), h₄.required (blind_list? Paragraph.blind),
        h₅.required (blind_list? Statement.blind), h₆.required (blind_list? ControlFlow.blind),
        h₇.required (blind_list? blind_string?), h₈.required (blind_list? FileOperation.blind),
        h₉.required (blind_list? Perform.blind), h₁₀.required (blind_list? blind_string?)]
    all_goals rfl
  · rfl

end Cobol

namespace Outline

/-- The outline that a value stands for does not depend on the order of any
members in it, as long as no division is repeated. -/
theorem ofJson?_reorders {v v' : Json} (h : Reorders v v') (hd : Cobol.DistinctDivisions v) :
    ofJson? v = ofJson? v' := by
  rw [ofJson?, ofJson?, Jcl.Outline.blind v v' h, Cobol.Outline.ofJson?_reorders h hd]

/-- The outcome of decoding an outline does not depend on the order of any
members, at any depth, as long as no division is repeated: neither for a value,
nor for two texts that stand for values which differ in that order only. -/
theorem decode_reordered {v v' : Json} (h : Reordered v v') (hd : Cobol.DistinctDivisions v) :
    ofJson? v = ofJson? v' ∧
      ∀ text text' isClean, read .strict text = .ok ⟨v, isClean⟩ →
        read .strict text' = .ok ⟨v', isClean⟩ → ofText text = ofText text' := by
  have hsteps : Cobol.DistinctDivisions v' ∧ ofJson? v = ofJson? v' := by
    induction h with
    | refl => exact ⟨hd, rfl⟩
    | tail _ hstep ih => exact ⟨ih.1.reorders hstep, ih.2.trans (ofJson?_reorders hstep ih.1)⟩
  refine ⟨hsteps.2, ?_⟩
  intro text text' isClean hread hread'
  simp only [ofText, hread, hread', hsteps.2]

/-- The members of a program with one statement. -/
def oneStatement (marks statement : List (String × Json)) : List (String × Json) :=
  [("program_info", .object []), ("divisions", .object marks), ("variables", .array []),
    ("paragraphs", .array []), ("statements", .array [.object statement]),
    ("control_flow", .array []), ("conditions", .array []), ("file_operations", .array []),
    ("performs", .array []), ("warnings", .array [])]

/-- The marks of two divisions. -/
def twoMarks : List (String × Json) :=
  [("data_division", .bool true), ("procedure_division", .bool false)]

/-- A MOVE whose tag stands behind its fields, with a member that is passed over
twice. -/
def tagLast : List (String × Json) :=
  [("id", .string "STMT_2"), ("line", .natural 2), ("from", .string "A"), ("note", .null),
    ("to", .string "B"), ("note", .array []), ("type", .string "MOVE")]

theorem reordered_oneStatement :
    Reordered (.object (oneStatement twoMarks tagLast))
      (.object (oneStatement twoMarks.reverse tagLast.reverse).reverse) := by
  have hmarks : Reorders (.object (oneStatement twoMarks tagLast))
      (.object (oneStatement twoMarks.reverse tagLast)) :=
    @Reorders.member [_] _ _ _ _ (.here (List.reverse_perm _).symm)
  have hstatement : Reorders (.object (oneStatement twoMarks.reverse tagLast))
      (.object (oneStatement twoMarks.reverse tagLast.reverse)) :=
    @Reorders.member [_, _, _, _] _ _ _ _
      (@Reorders.item [] _ _ _ (.here (List.reverse_perm _).symm))
  exact ((Relation.ReflTransGen.single hmarks).tail hstatement).tail
    (.here (List.reverse_perm _).symm)

/-- With all members of the program, of its divisions and of its statement in
reverse order, the same outline is decoded. -/
theorem decode_oneStatement :
    Cobol.DistinctDivisions (.object (oneStatement twoMarks tagLast)) ∧
      ofJson? (.object (oneStatement twoMarks.reverse tagLast.reverse).reverse) =
        some (.cobol { Cobol.Outline.empty with
          divisions := ⟨none, none, some true, some false⟩
          statements := [⟨"STMT_2", 2, .move "A" "B"⟩] }) := by
  have hd : Cobol.DistinctDivisions (.object (oneStatement twoMarks tagLast)) := by
    intro d hmem
    rw [List.mem_singleton.1 hmem]
    show (twoMarks.map Prod.fst).Nodup
    decide
  have hread : ofJson? (.object (oneStatement twoMarks tagLast)) =
      some (.cobol { Cobol.Outline.empty with
        divisions := ⟨none, none, some true, some false⟩
        statements := [⟨"STMT_2", 2, .move "A" "B"⟩] }) := by decide
  exact ⟨hd, (decode_reordered reordered_oneStatement hd).1.symm.trans hread⟩

/-- Of a division that is marked twice the last mark counts. -/
example :
    Cobol.Divisions.ofJson?
        (.object [("data_division", .bool true), ("data_division", .bool false)]) ≠
      Cobol.Divisions.ofJson?
        (.object [("data_division", .bool false), ("data_division", .bool true)]) := by
  decide

end Outline

end Mainframe
