import Mainframe.Proofs.WrittenText

/-
  A written value, read back.

  A value is plain if the reader keeps it as it is: its naturals are in range,
  its other scalars are texts, truth values or null, and its containers are not
  too deep. A reader that waits for a value in some state has, after the written
  form of a plain value, delivered that value.

  A number is delivered only by the character behind it, so "has delivered" is
  said of what the reader does next and not of the state that it is in.

  What is proved:
    1. `delivered_write`: after the written form of a plain value the reader
       has delivered it, in every layout that separates parts by space.
    2. `read_text` and `read_printed`: the text of a plain value, alone or with
       a line feed behind it, is read as that value.
    3. `isSpaced_compact` and `isSpaced_pretty`: the two layouts do so.
-/

namespace Mainframe.Json

/-- The layout has nothing but space in front of an item, and a colon and space
between a key and its value. -/
structure Layout.IsSpaced (layout : Layout) : Prop where
  lineBreak : ∀ depth, ∀ c ∈ layout.lineBreak depth, isSpace c = true
  colon : ∃ gap, layout.colon = ':' :: gap ∧ ∀ c ∈ gap, isSpace c = true

theorem isSpaced_compact : Layout.compact.IsSpaced :=
  ⟨by simp [Layout.compact], [], rfl, by simp⟩

theorem isSpaced_pretty : Layout.pretty.IsSpaced := by
  refine ⟨?_, [' '], rfl, by simp [isSpace]⟩
  intro depth c hc
  rcases List.mem_cons.1 hc with rfl | hc
  · rfl
  · rw [List.eq_of_mem_replicate hc]
    rfl

/-- The value is read back as it is, with containers at most `room` deep. -/
inductive Plain : Nat → Json → Prop
  | null {room : Nat} : Plain room .null
  | bool {room : Nat} (b : Bool) : Plain room (.bool b)
  | natural {room n : Nat} (h : n ≤ maxNatural) : Plain room (.natural n)
  | string {room : Nat} (s : String) : Plain room (.string s)
  | array {room : Nat} {items : List Json} (h : ∀ item ∈ items, Plain room item) :
      Plain (room + 1) (.array items)
  | object {room : Nat} {members : List (String × Json)} (h : ∀ m ∈ members, Plain room m.2) :
      Plain (room + 1) (.object members)

theorem Plain.mono {room room' : Nat} {v : Json} (h : Plain room v) (hle : room ≤ room') :
    Plain room' v := by
  induction h generalizing room' with
  | null => exact .null
  | bool b => exact .bool b
  | natural h => exact .natural h
  | string s => exact .string s
  | array h ih =>
    obtain ⟨n, rfl⟩ : ∃ n, room' = n + 1 := ⟨room' - 1, by omega⟩
    exact .array (fun item hi => ih item hi (by omega))
  | object h ih =>
    obtain ⟨n, rfl⟩ : ∃ n, room' = n + 1 := ⟨room' - 1, by omega⟩
    exact .object (fun m hm => ih m hm (by omega))

variable {policy : Policy} {layout : Layout}

/-! ## States that wait for a value -/

/-- The next character that is no space begins a value inside the frames. -/
def Awaits (policy : Policy) (s : State) (frames : List Frame) : Prop :=
  ∀ c, isSpace c = false → c ≠ ']' → step policy s c = beginValue policy frames c

theorem awaits_value (frames : List Frame) : Awaits policy (.value frames) frames := by
  intro c hc _
  simp [step, hc]

theorem awaits_firstItem (frames : List Frame) :
    Awaits policy (.firstItem frames) (.array [] :: frames) := by
  intro c hc hne
  simp [step, hc, hne]

/-- Space leaves the state as it is. -/
def PassesSpace (policy : Policy) (s : State) : Prop :=
  ∀ c, isSpace c = true → step policy s c = s

theorem passesSpace_value (frames : List Frame) : PassesSpace policy (.value frames) := by
  intro c hc
  simp [step, hc]

theorem passesSpace_firstItem (frames : List Frame) :
    PassesSpace policy (.firstItem frames) := by
  intro c hc
  simp [step, hc]

theorem passesSpace_firstKey (frames : List Frame) : PassesSpace policy (.firstKey frames) := by
  intro c hc
  simp [step, hc]

theorem passesSpace_nextKey (before : Option (List (String × Json))) (frames : List Frame) :
    PassesSpace policy (.nextKey before frames) := by
  intro c hc
  simp [step, hc]

theorem run_spaces {s : State} (hs : PassesSpace policy s) {spaces : List Char}
    (h : ∀ c ∈ spaces, isSpace c = true) : run policy s spaces = s := by
  induction spaces with
  | nil => rfl
  | cons c spaces ih =>
    rw [run_cons, hs c (h c List.mem_cons_self)]
    exact ih (fun d hd => h d (List.mem_cons_of_mem c hd))

/-! ## States in which a value has been delivered -/

/-- The characters that may stand behind a value. -/
def endsValue (c : Char) : Bool := isSpace c || c == ',' || c == ']' || c == '\x7d'

theorem mem_of_endsValue {c : Char} (h : endsValue c = true) :
    c ∈ [' ', '\t', '\n', '\r', ',', ']', '\x7d'] := by
  simp only [endsValue, isSpace, Bool.or_eq_true, beq_iff_eq] at h
  simp only [List.mem_cons, List.not_mem_nil, or_false]
  grind

/-- The reader goes on, or stops, as it does once the value is delivered. -/
structure Delivered (policy : Policy) (s : State) (v : Json) (frames : List Frame) : Prop where
  next : ∀ c, endsValue c = true → step policy s c = afterValue (deliver v frames) c
  finish : s.finish policy = (deliver v frames).finish policy

theorem step_deliver (v : Json) (frames : List Frame) (c : Char) :
    step policy (deliver v frames) c = afterValue (deliver v frames) c := by
  match frames with
  | [] => rfl
  | .array _ :: _ => rfl
  | .member _ _ :: _ => rfl

theorem delivered_deliver (v : Json) (frames : List Frame) :
    Delivered policy (deliver v frames) v frames :=
  ⟨fun c _ => step_deliver v frames c, rfl⟩

theorem afterValue_space (v : Json) (frames : List Frame) {c : Char} (hc : isSpace c = true) :
    afterValue (deliver v frames) c = deliver v frames := by
  match frames with
  | [] => simp [deliver, afterValue, hc]
  | .array _ :: _ => simp [deliver, afterValue, hc]
  | .member _ _ :: _ => simp [deliver, afterValue, hc]

/-- Space behind a delivered value changes nothing about what comes next. -/
theorem Delivered.run_spaces_step {s : State} {v : Json} {frames : List Frame}
    (h : Delivered policy s v frames) {spaces : List Char}
    (hs : ∀ c ∈ spaces, isSpace c = true) {c : Char} (hc : endsValue c = true) :
    run policy s (spaces ++ [c]) = afterValue (deliver v frames) c := by
  cases spaces with
  | nil => exact h.next c hc
  | cons d spaces =>
    have hd : isSpace d = true := hs d List.mem_cons_self
    have hfirst : step policy s d = deliver v frames := by
      rw [h.next d (by simp [endsValue, hd]), afterValue_space v frames hd]
    have hrest : run policy (deliver v frames) spaces = deliver v frames :=
      run_spaces (fun e he => by rw [step_deliver, afterValue_space v frames he])
        (fun e he => hs e (List.mem_cons_of_mem d he))
    rw [List.cons_append, run_cons, hfirst, run_append, hrest]
    exact step_deliver v frames c

/-! ## Scalars -/

theorem step_quote {s : State} {frames : List Frame} (hs : Awaits policy s frames) :
    step policy s '"' = .text .value .start frames := hs '"' rfl (by decide)

theorem delivered_string {s : State} {frames : List Frame} (hs : Awaits policy s frames)
    (t : String) : Delivered policy (run policy s (quote t)) (.string t) frames := by
  rw [quote, run_cons, step_quote hs, run_quoted_value]
  exact delivered_deliver _ _

theorem step_more_digits {c : Char} (hc : c.isDigit = true) (taken : List Char)
    (frames : List Frame) :
    step policy (.number .whole taken frames) c = .number .whole (c :: taken) frames := by
  simp [step, stepNumber, NumberPart.next?, hc]

theorem run_digits {taken digits : List Char} {frames : List Frame}
    (h : ∀ c ∈ digits, c.isDigit = true) :
    run policy (.number .whole taken frames) digits =
      .number .whole (digits.reverse ++ taken) frames := by
  induction digits generalizing taken with
  | nil => rfl
  | cons c digits ih =>
    rw [run_cons, step_more_digits (h c List.mem_cons_self),
      ih (fun d hd => h d (List.mem_cons_of_mem c hd)), List.reverse_cons, List.append_assoc,
      List.singleton_append]

/-- The first digit of a number, if it is not zero. -/
theorem step_digit {s : State} {frames : List Frame} (hs : Awaits policy s frames) {c : Char}
    (hdigit : c.isDigit = true) (hc : c ≠ '0') :
    step policy s c = .number .whole [c] frames := by
  have hother : ∀ d : Char, d.isDigit = false → c ≠ d := by
    rintro d hd rfl
    rw [hdigit] at hd
    cases hd
  have hbegin : beginValue policy frames c = .number .whole [c] frames := by
    simp [beginValue, hother '"' rfl, hother '[' rfl, hother '\x7b' rfl, hother 'n' rfl,
      hother 't' rfl, hother 'f' rfl, hother '-' rfl, hc, hdigit]
  have hspace : isSpace c = false := by
    simp [isSpace, hother ' ' rfl, hother '\t' rfl, hother '\n' rfl, hother '\r' rfl]
  rw [hs c hspace (hother ']' rfl), hbegin]

/-- The digits of a natural number leave the reader inside a number that may
end there. -/
theorem run_toDigits {s : State} {frames : List Frame} (hs : Awaits policy s frames) (n : Nat) :
    ∃ part, (part = .zero ∨ part = .whole) ∧
      run policy s (Nat.toDigits 10 n) = .number part (Nat.toDigits 10 n).reverse frames := by
  by_cases hn : n = 0
  · -- a zero takes no digit behind it
    subst hn
    refine ⟨.zero, .inl rfl, ?_⟩
    rw [Nat.toDigits_zero, run_cons, hs '0' rfl (by decide)]
    rfl
  · obtain ⟨c, digits, hd, hc⟩ := toDigits_of_pos (Nat.pos_of_ne_zero hn)
    have hall := isDigit_toDigits n
    rw [hd] at hall ⊢
    refine ⟨.whole, .inr rfl, ?_⟩
    rw [run_cons, step_digit hs (hall c List.mem_cons_self) hc,
      run_digits (fun d hd => hall d (List.mem_cons_of_mem c hd)), List.reverse_cons]

theorem delivered_natural {s : State} {frames : List Frame} (hs : Awaits policy s frames)
    {n : Nat} (hn : n ≤ maxNatural) :
    Delivered policy (run policy s (Nat.toDigits 10 n)) (.natural n) frames := by
  obtain ⟨part, hpart, hrun⟩ := run_toDigits hs n
  have hdeliver : deliverScalar policy (numberOf (Nat.toDigits 10 n).reverse.reverse) frames =
      deliver (.natural n) frames := by
    rw [List.reverse_reverse, numberOf_toDigits hn]
    rfl
  rw [hrun]
  constructor
  · -- the next character is no part of the number, so it ends it
    intro c hc
    have hnext : part.next? c = none ∧ (part.mayEnd && !(part == .zero && c.isDigit)) = true := by
      have hmem := mem_of_endsValue hc
      simp only [List.mem_cons, List.not_mem_nil, or_false] at hmem
      rcases hpart with rfl | rfl <;>
        rcases hmem with rfl | rfl | rfl | rfl | rfl | rfl | rfl <;> exact ⟨rfl, rfl⟩
    simp only [step, stepNumber, hnext.1, hnext.2, hdeliver, if_true]
  · -- the number may end with the text
    have hend : part.mayEnd = true := by rcases hpart with rfl | rfl <;> rfl
    simp only [State.finish, hend, hdeliver, if_true]
    cases frames with
    | nil => rfl
    | cons frame frames => cases frame <;> rfl

/-! ## Containers -/

/-- The written form of the value is read as that value wherever a value is
awaited, as far as the frames leave room. -/
def ReadsBack (policy : Policy) (layout : Layout) (room : Nat) (v : Json) : Prop :=
  ∀ (depth : Nat) (s : State) (frames : List Frame), frames.length + room ≤ maxDepth →
    Awaits policy s frames → Delivered policy (run policy s (write layout depth v)) v frames

theorem run_value_spaces (frames : List Frame) {spaces : List Char}
    (h : ∀ c ∈ spaces, isSpace c = true) : run policy (.value frames) spaces = .value frames :=
  run_spaces (passesSpace_value frames) h

/-- What follows the first item of an array closes it with all of its items. -/
theorem run_writeItems (hl : layout.IsSpaced) {room depth : Nat} {frames : List Frame}
    (hroom : frames.length + 1 + room ≤ maxDepth) {items : List Json}
    (hitems : ∀ item ∈ items, ReadsBack policy layout room item) (outer : Nat)
    {s : State} {item : Json} {before : List Json}
    (hs : Delivered policy s item (.array before :: frames)) :
    run policy s (writeItems layout depth items ++ (layout.lineBreak outer ++ [']'])) =
      deliver (.array ((item :: before).reverse ++ items)) frames := by
  -- the items read so far are in `before`, and `item` has been delivered last
  induction items generalizing s item before with
  | nil =>
    rw [writeItems, List.nil_append, hs.run_spaces_step (hl.lineBreak outer) (by decide),
      List.append_nil]
    rfl
  | cons next items ih =>
    have hcomma : step policy s ',' = .value (.array (item :: before) :: frames) :=
      hs.next ',' rfl
    have hnext := hitems next List.mem_cons_self depth (.value (.array (item :: before) :: frames))
      (.array (item :: before) :: frames) (by rw [List.length_cons]; omega) (awaits_value _)
    calc run policy s (writeItems layout depth (next :: items) ++ (layout.lineBreak outer ++ [']']))
        = run policy (.value (.array (item :: before) :: frames)) (layout.lineBreak depth ++
            (write layout depth next ++
              (writeItems layout depth items ++ (layout.lineBreak outer ++ [']'])))) := by
          rw [writeItems, List.cons_append, run_cons, hcomma, List.append_assoc, List.append_assoc]
      _ = run policy
            (run policy (.value (.array (item :: before) :: frames)) (write layout depth next))
            (writeItems layout depth items ++ (layout.lineBreak outer ++ [']'])) := by
          rw [run_append, run_value_spaces _ (hl.lineBreak depth), run_append]
      _ = deliver (.array ((next :: item :: before).reverse ++ items)) frames :=
          ih (fun i hi => hitems i (List.mem_cons_of_mem next hi)) hnext
      _ = deliver (.array ((item :: before).reverse ++ next :: items)) frames := by
          rw [List.reverse_cons, List.append_assoc, List.singleton_append]

/-- A key, a colon and a value stand behind a place where a key may begin. -/
theorem delivered_member (hl : layout.IsSpaced) {room : Nat} {frames : List Frame}
    (hroom : frames.length + 1 + room ≤ maxDepth) (depth : Nat) {v : Json}
    (hv : ReadsBack policy layout room v) {s : State} {before : List (String × Json)}
    (hs : step policy s '"' = .text (.key (some before)) .start frames) (key : String) :
    Delivered policy (run policy s (quote key ++ (layout.colon ++ write layout depth v))) v
      (.member (some before) (some key) :: frames) := by
  obtain ⟨gap, hcolon, hgap⟩ := hl.colon
  have hstep : step policy (.colon (some before) (some key) frames) ':' =
      .value (.member (some before) (some key) :: frames) := rfl
  rw [run_append, quote, run_cons, hs, run_quoted_key, hcolon, List.cons_append, run_cons, hstep,
    run_append, run_value_spaces _ hgap]
  exact hv depth _ _ (by rw [List.length_cons]; omega) (awaits_value _)

/-- What follows the first member of an object closes it with all of its
members. -/
theorem run_writeMembers (hl : layout.IsSpaced) {room depth : Nat} {frames : List Frame}
    (hroom : frames.length + 1 + room ≤ maxDepth) {members : List (String × Json)}
    (hmembers : ∀ m ∈ members, ReadsBack policy layout room m.2) (outer : Nat)
    {s : State} {key : String} {v : Json} {before : List (String × Json)}
    (hs : Delivered policy s v (.member (some before) (some key) :: frames)) :
    run policy s (writeMembers layout depth members ++ (layout.lineBreak outer ++ ['\x7d'])) =
      deliver (.object (((key, v) :: before).reverse ++ members)) frames := by
  -- as for items, with a key in front of every value
  induction members generalizing s key v before with
  | nil =>
    rw [writeMembers, List.nil_append, hs.run_spaces_step (hl.lineBreak outer) (by decide),
      List.append_nil]
    rfl
  | cons m members ih =>
    obtain ⟨key', v'⟩ := m
    have hcomma : step policy s ',' = .nextKey (some ((key, v) :: before)) frames :=
      hs.next ',' rfl
    have hspaces : run policy (.nextKey (some ((key, v) :: before)) frames)
        (layout.lineBreak depth) = .nextKey (some ((key, v) :: before)) frames :=
      run_spaces (passesSpace_nextKey _ frames) (hl.lineBreak depth)
    have hkey : step policy (.nextKey (some ((key, v) :: before)) frames) '"' =
        .text (.key (some ((key, v) :: before))) .start frames := rfl
    have hnext := delivered_member hl hroom depth (hmembers _ List.mem_cons_self) hkey key'
    calc run policy s
          (writeMembers layout depth ((key', v') :: members) ++
            (layout.lineBreak outer ++ ['\x7d']))
        = run policy (.nextKey (some ((key, v) :: before)) frames) (layout.lineBreak depth ++
            ((quote key' ++ (layout.colon ++ write layout depth v')) ++
              (writeMembers layout depth members ++ (layout.lineBreak outer ++ ['\x7d'])))) := by
          rw [writeMembers, List.cons_append, run_cons, hcomma]
          simp only [List.append_assoc]
      _ = run policy
            (run policy (.nextKey (some ((key, v) :: before)) frames)
              (quote key' ++ (layout.colon ++ write layout depth v')))
            (writeMembers layout depth members ++ (layout.lineBreak outer ++ ['\x7d'])) := by
          rw [run_append, hspaces, run_append]
      _ = deliver (.object (((key', v') :: (key, v) :: before).reverse ++ members)) frames :=
          ih (fun n hn => hmembers n (List.mem_cons_of_mem _ hn)) hnext
      _ = deliver (.object (((key, v) :: before).reverse ++ (key', v') :: members)) frames := by
          rw [List.reverse_cons, List.append_assoc, List.singleton_append]

theorem mayOpen_of_lt {frames : List Frame} (h : frames.length < maxDepth) :
    mayOpen policy frames = true := by
  cases policy <;> simp [mayOpen, h]

theorem step_bracket {s : State} {frames : List Frame} (hs : Awaits policy s frames)
    (h : frames.length < maxDepth) : step policy s '[' = .firstItem frames := by
  rw [hs '[' rfl (by decide)]
  simp [beginValue, mayOpen_of_lt h]

theorem step_brace {s : State} {frames : List Frame} (hs : Awaits policy s frames)
    (h : frames.length < maxDepth) : step policy s '\x7b' = .firstKey frames := by
  rw [hs '\x7b' rfl (by decide)]
  simp [beginValue, mayOpen_of_lt h]

theorem delivered_array (hl : layout.IsSpaced) {room : Nat} {items : List Json}
    (hitems : ∀ item ∈ items, ReadsBack policy layout room item) :
    ReadsBack policy layout (room + 1) (.array items) := by
  intro depth s frames hroom hs
  have hopen := step_bracket hs (by omega)
  cases items with
  | nil =>
    rw [write, run_cons, hopen]
    exact delivered_deliver _ _
  | cons item items =>
    have hspaces : run policy (.firstItem frames) (layout.lineBreak (depth + 1)) =
        .firstItem frames :=
      run_spaces (passesSpace_firstItem frames) (hl.lineBreak _)
    have hfirst := hitems item List.mem_cons_self (depth + 1) (.firstItem frames)
      (.array [] :: frames) (by rw [List.length_cons]; omega) (awaits_firstItem frames)
    have hinner : frames.length + 1 + room ≤ maxDepth := by omega
    rw [write, run_cons, hopen, run_append, hspaces, run_append,
      run_writeItems hl hinner (fun i hi => hitems i (List.mem_cons_of_mem item hi)) depth hfirst]
    exact delivered_deliver _ _

theorem delivered_object (hl : layout.IsSpaced) {room : Nat} {members : List (String × Json)}
    (hmembers : ∀ m ∈ members, ReadsBack policy layout room m.2) :
    ReadsBack policy layout (room + 1) (.object members) := by
  intro depth s frames hroom hs
  have hopen := step_brace hs (by omega)
  match members with
  | [] =>
    rw [write, run_cons, hopen]
    exact delivered_deliver _ _
  | (key, v) :: members =>
    have hspaces : run policy (.firstKey frames) (layout.lineBreak (depth + 1)) =
        .firstKey frames :=
      run_spaces (passesSpace_firstKey frames) (hl.lineBreak _)
    have hkey : step policy (.firstKey frames) '"' = .text (.key (some [])) .start frames := rfl
    have hinner : frames.length + 1 + room ≤ maxDepth := by omega
    have hfirst := delivered_member hl hinner (depth + 1) (hmembers _ List.mem_cons_self) hkey key
    have hparts : ∀ rest : List Char,
        quote key ++ (layout.colon ++ (write layout (depth + 1) v ++ rest)) =
          (quote key ++ (layout.colon ++ write layout (depth + 1) v)) ++ rest := by
      intro rest
      simp only [List.append_assoc]
    rw [write, run_cons, hopen, run_append, hspaces, hparts, run_append,
      run_writeMembers hl hinner (fun m hm => hmembers m (List.mem_cons_of_mem _ hm)) depth
        hfirst]
    exact delivered_deliver _ _

/-! ## Values -/

theorem delivered_write (hl : layout.IsSpaced) {room : Nat} {v : Json} (hv : Plain room v) :
    ReadsBack policy layout room v := by
  -- on plainness, since it says how much room is left inside a container
  induction hv with
  | null =>
    intro depth s frames _ hs
    rw [write, run_cons, hs 'n' rfl (by decide)]
    exact delivered_deliver _ _
  | bool b =>
    intro depth s frames _ hs
    cases b with
    | false =>
      rw [write, run_cons, hs 'f' rfl (by decide)]
      exact delivered_deliver _ _
    | true =>
      rw [write, run_cons, hs 't' rfl (by decide)]
      exact delivered_deliver _ _
  | natural h =>
    intro depth s frames _ hs
    exact delivered_natural hs h
  | string t =>
    intro depth s frames _ hs
    exact delivered_string hs t
  | array _ ih => exact delivered_array hl ih
  | object _ ih => exact delivered_object hl ih

theorem delivered_whole (hl : layout.IsSpaced) {v : Json} (hv : Plain maxDepth v) :
    Delivered policy (run policy (.value []) (write layout 0 v)) v [] :=
  delivered_write hl hv 0 (.value []) [] (by simp) (awaits_value [])

theorem read_text (hl : layout.IsSpaced) {v : Json} (hv : Plain maxDepth v) :
    read policy (v.text layout) = .ok ⟨v, true⟩ := by
  rw [read, text, String.toList_ofList, (delivered_whole hl hv).finish]
  rfl

/-- A text is read back with the line feed that is printed behind it. -/
theorem read_printed (hl : layout.IsSpaced) {v : Json} (hv : Plain maxDepth v) :
    read policy (v.text layout ++ "\n") = .ok ⟨v, true⟩ := by
  have hfeed : step policy (run policy (.value []) (write layout 0 v)) '\n' = .complete v :=
    ((delivered_whole hl hv).next '\n' rfl).trans (afterValue_space v [] rfl)
  rw [read, text, String.toList_append, String.toList_ofList, run_append]
  exact congrArg (State.finish policy) hfeed

theorem decodeText?_text {α : Type} (decode : Json → Option α) (hl : layout.IsSpaced) {v : Json}
    (hv : Plain maxDepth v) : decodeText? decode (v.text layout) = decode v := by
  rw [decodeText?, readWhole?, read_text hl hv]
  rfl

end Mainframe.Json
