import Mainframe.Proofs.PhrasePlaces
import Mainframe.Proofs.WrittenValue

/-
  Written values, told apart.

  A text that begins with a written value determines that value and what stands
  behind it: nothing has to be read first. A number ends where the digits end,
  so what stands behind a value must not begin with a digit; a text ends at the
  first quotation mark that is not written as an escape; and what is between
  brackets ends with the bracket at the depth of the first one.

  Here a natural number may have any size and containers any depth, so this
  holds also of values that a reader refuses.

  What is proved:
    1. `escapeChar_append_inj` and `quote_append_inj`: the written form of a
       character, and of a text, is no beginning of another one.
    2. `apart_write`: nor is the written form of a value, in the layout with one
       item on a line.
-/

namespace Mainframe.Json

open Text (OpensWithout)

/-! ## Texts -/

theorem hexDigit_inj {m n : Nat} (hm : m < 16) (hn : n < 16) (h : hexDigit m = hexDigit n) :
    m = n := by
  have hvalue := hexValue_hexDigit m hm
  rw [h, hexValue_hexDigit n hn] at hvalue
  exact (Option.some.inj hvalue).symm

/-- No character is written with a quotation mark at its front. -/
theorem escapeChar_eq_cons (c : Char) : ∃ d s, escapeChar c = d :: s ∧ d ≠ '"' := by
  rcases escapeChar_cases c with ⟨letter, hform, -, -⟩ | ⟨-, hform⟩ | ⟨hform, hquote, -, -⟩
  · exact ⟨_, _, hform, by decide⟩
  · exact ⟨_, _, hform, by decide⟩
  · exact ⟨_, _, hform, hquote⟩

theorem escapeChar_append_inj {c d : Char} {r r' : List Char}
    (h : escapeChar c ++ r = escapeChar d ++ r') : c = d ∧ r = r' := by
  rcases escapeChar_cases c with ⟨letter, hform, hu, hl⟩ | ⟨hc, hform⟩ | ⟨hform, -, hs, -⟩ <;>
    rcases escapeChar_cases d with ⟨letter', hform', hu', hl'⟩ | ⟨hd, hform'⟩ |
      ⟨hform', -, hs', -⟩ <;>
    rw [hform, hform'] at h <;>
    simp only [List.cons_append, List.nil_append, List.cons.injEq] at h
  · obtain ⟨-, rfl, hr⟩ := h
    exact ⟨Option.some.inj (hl.symm.trans hl'), hr⟩
  · exact absurd h.2.1 hu
  · exact absurd h.1.symm hs'
  · exact absurd h.2.1.symm hu'
  · -- the two digits number the character
    obtain ⟨-, -, -, -, hhigh, hlow, hr⟩ := h
    have hdiv := hexDigit_inj (by omega) (by omega) hhigh
    have hmod := hexDigit_inj (by omega) (by omega) hlow
    exact ⟨Char.toNat_inj.1 (by omega), hr⟩
  · exact absurd h.1.symm hs'
  · exact absurd h.1 hs
  · exact absurd h.1 hs
  · exact h

/-- The characters of a text end at the first quotation mark that is no escape. -/
theorem escapeChars_append_inj {s t r r' : List Char}
    (h : s.flatMap escapeChar ++ '"' :: r = t.flatMap escapeChar ++ '"' :: r') :
    s = t ∧ r = r' := by
  induction s generalizing t with
  | nil =>
    cases t with
    | nil => exact ⟨rfl, (List.cons.inj h).2⟩
    | cons d t =>
      obtain ⟨e, u, hform, hne⟩ := escapeChar_eq_cons d
      rw [List.flatMap_cons, hform] at h
      exact absurd (List.cons.inj h).1.symm hne
  | cons c s ih =>
    cases t with
    | nil =>
      obtain ⟨e, u, hform, hne⟩ := escapeChar_eq_cons c
      rw [List.flatMap_cons, hform] at h
      exact absurd (List.cons.inj h).1 hne
    | cons d t =>
      rw [List.flatMap_cons, List.flatMap_cons, List.append_assoc, List.append_assoc] at h
      obtain ⟨rfl, hrest⟩ := escapeChar_append_inj h
      obtain ⟨rfl, hr⟩ := ih hrest
      exact ⟨rfl, hr⟩

theorem quote_append_inj {s t : String} {r r' : List Char} (h : quote s ++ r = quote t ++ r') :
    s = t ∧ r = r' := by
  simp only [quote, List.cons_append, List.append_assoc, List.nil_append, List.cons.injEq,
    true_and] at h
  obtain ⟨hchars, hr⟩ := escapeChars_append_inj h
  exact ⟨String.toList_inj.1 hchars, hr⟩

/-! ## Forms that determine what is written -/

/-- If the two are written alike, up to what stands behind them, then they are
the same and so is what stands behind them. -/
def Apart {α : Type} (form : α → List Char) (a b : α) : Prop :=
  ∀ r r', OpensWithout Char.isDigit r → OpensWithout Char.isDigit r' →
    form a ++ r = form b ++ r' → a = b ∧ r = r'

theorem apart_toDigits (m n : Nat) : Apart (Nat.toDigits 10) m n := by
  intro r r' hr hr' h
  obtain ⟨htake, hdrop⟩ := Text.takeWhile_append_of_opensWithout (isDigit_toDigits m) hr
  obtain ⟨htake', hdrop'⟩ := Text.takeWhile_append_of_opensWithout (isDigit_toDigits n) hr'
  rw [h] at htake hdrop
  have hdigits : Nat.toDigits 10 m = Nat.toDigits 10 n := htake.symm.trans htake'
  refine ⟨?_, hdrop.symm.trans hdrop'⟩
  rw [← decimalValue_toDigits m, hdigits, decimalValue_toDigits]

/-! ## Brackets -/

/-- The parts that follow another one, each on a line of its own. -/
def continued (depth : Nat) (parts : List (List Char)) : List Char :=
  parts.flatMap (fun part => ',' :: (Layout.pretty.lineBreak depth ++ part))

/-- The parts between two brackets, each on a line of its own. -/
def bracketed (opening closing : Char) (depth : Nat) : List (List Char) → List Char
  | [] => [opening, closing]
  | part :: parts =>
    opening :: (Layout.pretty.lineBreak (depth + 1) ++ (part ++ (continued (depth + 1) parts
      ++ (Layout.pretty.lineBreak depth ++ [closing]))))

/-- A key and the value behind it. -/
def writeMember (depth : Nat) (m : String × Json) : List Char :=
  quote m.1 ++ (Layout.pretty.colon ++ write .pretty depth m.2)

theorem writeItems_eq_continued (depth : Nat) (items : List Json) :
    writeItems .pretty depth items = continued depth (items.map (write .pretty depth)) := by
  induction items with
  | nil => rfl
  | cons item items ih =>
    simp only [writeItems, ih, continued, List.map_cons, List.flatMap_cons, List.cons_append,
      List.append_assoc]

theorem writeMembers_eq_continued (depth : Nat) (members : List (String × Json)) :
    writeMembers .pretty depth members = continued depth (members.map (writeMember depth)) := by
  induction members with
  | nil => rfl
  | cons m members ih =>
    simp only [writeMembers, ih, continued, writeMember, List.map_cons, List.flatMap_cons,
      List.cons_append, List.append_assoc]

theorem write_array (depth : Nat) (items : List Json) :
    write .pretty depth (.array items) =
      bracketed '[' ']' depth (items.map (write .pretty (depth + 1))) := by
  cases items with
  | nil => rfl
  | cons item items => rw [write, writeItems_eq_continued, List.map_cons, bracketed]

theorem write_object (depth : Nat) (members : List (String × Json)) :
    write .pretty depth (.object members) =
      bracketed '\x7b' '\x7d' depth (members.map (writeMember (depth + 1))) := by
  cases members with
  | nil => rfl
  | cons m members =>
    simp only [write, writeMembers_eq_continued, List.map_cons, bracketed, writeMember,
      List.append_assoc]

/-- A line is broken, or a comma stands, behind every part. -/
theorem opensWithout_continued (inner outer : Nat) (parts : List (List Char)) (r : List Char) :
    OpensWithout Char.isDigit (continued inner parts ++ (Layout.pretty.lineBreak outer ++ r)) := by
  intro c hc
  cases parts with
  | nil =>
    cases hc
    rfl
  | cons part parts =>
    cases hc
    rfl

section Bracketed

variable {α : Type} {form : α → List Char}

/-- What follows a part ends with the closing bracket, since only another part
begins with a comma. -/
theorem continued_append_inj {as bs : List α} (h : ∀ a ∈ as, ∀ b ∈ bs, Apart form a b)
    {inner outer : Nat} {r r' : List Char}
    (heq : continued inner (as.map form) ++ (Layout.pretty.lineBreak outer ++ r) =
      continued inner (bs.map form) ++ (Layout.pretty.lineBreak outer ++ r')) :
    as = bs ∧ r = r' := by
  induction as generalizing bs with
  | nil =>
    cases bs with
    | nil => exact ⟨rfl, List.append_cancel_left heq⟩
    | cons b bs => exact absurd (List.cons.inj heq).1 (by decide)
  | cons a as ih =>
    cases bs with
    | nil => exact absurd (List.cons.inj heq).1 (by decide)
    | cons b bs =>
      have hparts : form a ++ (continued inner (as.map form) ++
          (Layout.pretty.lineBreak outer ++ r)) =
          form b ++ (continued inner (bs.map form) ++ (Layout.pretty.lineBreak outer ++ r')) := by
        simpa [continued] using heq
      obtain ⟨rfl, hrest⟩ := h a List.mem_cons_self b List.mem_cons_self _ _
        (opensWithout_continued inner outer _ r) (opensWithout_continued inner outer _ r') hparts
      obtain ⟨rfl, hr⟩ := ih
        (fun c hc d hd => h c (List.mem_cons_of_mem a hc) d (List.mem_cons_of_mem a hd)) hrest
      exact ⟨rfl, hr⟩

theorem apart_bracketed {as bs : List α} (h : ∀ a ∈ as, ∀ b ∈ bs, Apart form a b)
    (opening : Char) {closing : Char} (hclosing : closing ≠ '\n') (depth : Nat) :
    Apart (fun cs => bracketed opening closing depth (cs.map form)) as bs := by
  intro r r' _ _ heq
  match as, bs, h, heq with
  | [], [], _, heq => exact ⟨rfl, (List.cons.inj (List.cons.inj heq).2).2⟩
  | [], b :: bs, _, heq =>
    exact absurd (List.cons.inj (List.cons.inj heq).2).1 hclosing
  | a :: as, [], _, heq =>
    exact absurd (List.cons.inj (List.cons.inj heq).2).1.symm hclosing
  | a :: as, b :: bs, h, heq =>
    -- an array of one item less, as what follows a comma
    have hcontinued : continued (depth + 1) ((a :: as).map form) ++
        (Layout.pretty.lineBreak depth ++ closing :: r) =
        continued (depth + 1) ((b :: bs).map form) ++
          (Layout.pretty.lineBreak depth ++ closing :: r') := by
      simpa [bracketed, continued] using heq
    obtain ⟨hitems, hr⟩ := continued_append_inj h hcontinued
    exact ⟨hitems, (List.cons.inj hr).2⟩

end Bracketed

/-! ## Values -/

/-- The value holds nothing but null, truth values, natural numbers and texts. -/
inductive Proper : Json → Prop
  | null : Proper .null
  | bool (b : Bool) : Proper (.bool b)
  | natural (n : Nat) : Proper (.natural n)
  | string (s : String) : Proper (.string s)
  | array {items : List Json} (h : ∀ item ∈ items, Proper item) : Proper (.array items)
  | object {members : List (String × Json)} (h : ∀ m ∈ members, Proper m.2) :
      Proper (.object members)

theorem Plain.proper {room : Nat} {v : Json} (h : Plain room v) : Proper v := by
  induction h with
  | null => exact .null
  | bool b => exact .bool b
  | natural => exact .natural _
  | string s => exact .string s
  | array _ ih => exact .array ih
  | object _ ih => exact .object ih

/-- The kinds of values that are told apart by their first character. -/
inductive Kind where
  | null
  | truth
  | number
  | text
  | array
  | object

/-- The kind of the value that begins with the character. -/
def Kind.ofChar (c : Char) : Kind :=
  if c.isDigit then .number
  else if c = '"' then .text
  else if c = '[' then .array
  else if c = '\x7b' then .object
  else if c = 'n' then .null
  else .truth

/-- The kind of a value; one that is never written as data counts as null. -/
def kind : Json → Kind
  | .bool _ => .truth
  | .natural _ => .number
  | .string _ => .text
  | .array _ => .array
  | .object _ => .object
  | _ => .null

theorem write_eq_cons {v : Json} (hv : Proper v) (depth : Nat) :
    ∃ c s, write .pretty depth v = c :: s ∧ Kind.ofChar c = v.kind := by
  cases hv with
  | null => exact ⟨'n', _, rfl, rfl⟩
  | bool b =>
    cases b with
    | false => exact ⟨'f', _, rfl, rfl⟩
    | true => exact ⟨'t', _, rfl, rfl⟩
  | natural n =>
    cases hdigits : Nat.toDigits 10 n with
    | nil => exact absurd hdigits Nat.toDigits_ne_nil
    | cons c s =>
      have hc : c.isDigit = true := isDigit_toDigits n c (hdigits ▸ List.mem_cons_self)
      exact ⟨c, s, hdigits, if_pos hc⟩
  | string s => exact ⟨'"', _, rfl, rfl⟩
  | @array items _ =>
    rw [write_array]
    cases items.map (write .pretty (depth + 1)) with
    | nil => exact ⟨'[', _, rfl, rfl⟩
    | cons => exact ⟨'[', _, rfl, rfl⟩
  | @object members _ =>
    rw [write_object]
    cases members.map (writeMember (depth + 1)) with
    | nil => exact ⟨'\x7b', _, rfl, rfl⟩
    | cons => exact ⟨'\x7b', _, rfl, rfl⟩

theorem kind_eq_of_write {v w : Json} (hv : Proper v) (hw : Proper w) {depth : Nat}
    {r r' : List Char} (h : write .pretty depth v ++ r = write .pretty depth w ++ r') :
    v.kind = w.kind := by
  obtain ⟨c, s, hform, hkind⟩ := write_eq_cons hv depth
  obtain ⟨d, t, hform', hkind'⟩ := write_eq_cons hw depth
  rw [hform, hform'] at h
  rw [← hkind, ← hkind', (List.cons.inj h).1]

theorem apart_writeMember {m n : String × Json} {depth : Nat}
    (h : Apart (write .pretty depth) m.2 n.2) : Apart (writeMember depth) m n := by
  intro r r' hr hr' heq
  rw [writeMember, writeMember, List.append_assoc, List.append_assoc, List.append_assoc,
    List.append_assoc] at heq
  obtain ⟨hkey, hrest⟩ := quote_append_inj heq
  obtain ⟨hvalue, hr⟩ := h r r' hr hr' (List.append_cancel_left hrest)
  exact ⟨Prod.ext hkey hvalue, hr⟩

theorem apart_write {v w : Json} (hv : Proper v) (hw : Proper w) (depth : Nat) :
    Apart (write .pretty depth) v w := by
  -- values of two kinds differ in their first character, so both are of one kind
  induction hv generalizing w depth with
  | null =>
    intro r r' _ _ h
    have hkind := kind_eq_of_write .null hw h
    cases hw with
    | null => exact ⟨rfl, List.append_cancel_left h⟩
    | _ => cases hkind
  | bool b =>
    intro r r' _ _ h
    have hkind := kind_eq_of_write (.bool b) hw h
    cases hw with
    | bool b' =>
      cases b <;> cases b'
      · exact ⟨rfl, List.append_cancel_left h⟩
      · exact absurd (List.cons.inj h).1 (by decide)
      · exact absurd (List.cons.inj h).1 (by decide)
      · exact ⟨rfl, List.append_cancel_left h⟩
    | _ => cases hkind
  | natural n =>
    intro r r' hr hr' h
    have hkind := kind_eq_of_write (.natural n) hw h
    cases hw with
    | natural m =>
      obtain ⟨rfl, hrest⟩ := apart_toDigits n m r r' hr hr' h
      exact ⟨rfl, hrest⟩
    | _ => cases hkind
  | string s =>
    intro r r' _ _ h
    have hkind := kind_eq_of_write (.string s) hw h
    cases hw with
    | string t =>
      obtain ⟨rfl, hrest⟩ := quote_append_inj h
      exact ⟨rfl, hrest⟩
    | _ => cases hkind
  | @array items hitems ih =>
    intro r r' hr hr' h
    have hkind := kind_eq_of_write (.array hitems) hw h
    cases hw with
    | @array items' hitems' =>
      rw [write_array, write_array] at h
      have hparts := apart_bracketed (fun a ha b hb => ih a ha (hitems' b hb) (depth + 1)) '['
        (by decide : ']' ≠ '\n') depth
      obtain ⟨rfl, hrest⟩ := hparts r r' hr hr' h
      exact ⟨rfl, hrest⟩
    | _ => cases hkind
  | @object members hmembers ih =>
    intro r r' hr hr' h
    have hkind := kind_eq_of_write (.object hmembers) hw h
    cases hw with
    | @object members' hmembers' =>
      rw [write_object, write_object] at h
      have hparts := apart_bracketed
        (fun m hm n hn => apart_writeMember (ih m hm (hmembers' n hn) (depth + 1))) '\x7b'
        (by decide : '\x7d' ≠ '\n') depth
      obtain ⟨rfl, hrest⟩ := hparts r r' hr hr' h
      exact ⟨rfl, hrest⟩
    | _ => cases hkind

end Mainframe.Json
