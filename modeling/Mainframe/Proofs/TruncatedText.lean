import Mainframe.Command.Job
import Mainframe.Proofs.Interchange

/-
  Written text that is cut off.

  A state is open if a text that ends there has ended inside a value. A reader
  that follows the written form of a value is in an open state in front of each
  of its characters, so wherever the text is cut the fault is the end of the
  text and nothing else.

  A number may end anywhere, so it is cut openly only inside a container. There
  it must still be readable when it is cut, and the first digits of a number in
  range denote a number in range.

  What is proved:
    1. `staysOpen_append`: a text is followed piece by piece.
    2. `staysOpen_write`: the reader stays open over the written form of a plain
       value, in every layout that separates parts by space.
    3. `ofText_cut`: the text of an outline is read as that outline if it is
       whole, and has ended inside a value if anything is cut off.
-/

namespace Mainframe.Json

variable {policy : Policy} {layout : Layout}

/-! ## Open states -/

/-- A text that ends in the state has ended inside a value. -/
def State.IsOpen (policy : Policy) (s : State) : Prop := s.finish policy = .error .ended

/-- The reader is in an open state in front of each of the characters. -/
def StaysOpen (policy : Policy) : State → List Char → Prop
  | _, [] => True
  | s, c :: chars => s.IsOpen policy ∧ StaysOpen policy (step policy s c) chars

theorem staysOpen_append {s : State} {chars chars' : List Char} :
    StaysOpen policy s (chars ++ chars') ↔
      StaysOpen policy s chars ∧ StaysOpen policy (run policy s chars) chars' := by
  induction chars generalizing s with
  | nil => simp [StaysOpen]
  | cons c chars ih => rw [List.cons_append, StaysOpen, StaysOpen, ih, run_cons, and_assoc]

/-- The state in which something is cut off is open. -/
theorem StaysOpen.isOpen_cut {s : State} {part rest : List Char}
    (h : StaysOpen policy s (part ++ rest)) (hrest : rest ≠ []) :
    (run policy s part).IsOpen policy := by
  obtain ⟨c, rest, rfl⟩ := List.exists_cons_of_ne_nil hrest
  exact (staysOpen_append.1 h).2.1

theorem staysOpen_spaces {s : State} (hs : PassesSpace policy s) (hopen : s.IsOpen policy)
    {spaces : List Char} (h : ∀ c ∈ spaces, isSpace c = true) : StaysOpen policy s spaces := by
  induction spaces with
  | nil => trivial
  | cons c spaces ih =>
    refine ⟨hopen, ?_⟩
    rw [hs c (h c List.mem_cons_self)]
    exact ih (fun d hd => h d (List.mem_cons_of_mem c hd))

theorem isOpen_deliver (v : Json) (frame : Frame) (frames : List Frame) :
    (deliver v (frame :: frames)).IsOpen policy := by
  cases frame <;> rfl

theorem Delivered.isOpen {s : State} {v : Json} {frame : Frame} {frames : List Frame}
    (h : Delivered policy s v (frame :: frames)) : s.IsOpen policy :=
  h.finish.trans (isOpen_deliver v frame frames)

/-- Space behind a delivered value does not close the container around it. -/
theorem Delivered.staysOpen_spaces {s : State} {v : Json} {frame : Frame} {frames : List Frame}
    (h : Delivered policy s v (frame :: frames)) {spaces : List Char}
    (hs : ∀ c ∈ spaces, isSpace c = true) (c : Char) : StaysOpen policy s (spaces ++ [c]) := by
  induction spaces generalizing s with
  | nil => exact ⟨h.isOpen, trivial⟩
  | cons d spaces ih =>
    have hd : isSpace d = true := hs d List.mem_cons_self
    refine ⟨h.isOpen, ?_⟩
    rw [h.next d (by simp [endsValue, hd]), afterValue_space v _ hd]
    exact ih (delivered_deliver v _) (fun e he => hs e (List.mem_cons_of_mem d he))

/-! ## Texts -/

/-- Nothing more is read of the value: it is whole, or its text has a fault. -/
def State.IsOver : State → Prop
  | .complete _ | .trailing _ | .malformed => True
  | _ => False

theorem isOver_run {s : State} (h : s.IsOver) (chars : List Char) :
    (run policy s chars).IsOver := by
  induction chars generalizing s with
  | nil => exact h
  | cons c chars ih =>
    rw [run_cons]
    apply ih
    match s, h with
    | .complete v, _ =>
      simp only [step, afterValue]
      split <;> trivial
    | .trailing _, _ => trivial
    | .malformed, _ => trivial

/-- A character goes on with a text wherever the text stands, or it ends what is
read of a text that is a whole value. -/
theorem step_text_cases (policy : Policy) (t : TextState) (c : Char) :
    (∃ next, ∀ role frames,
      step policy (.text role t frames) c = .text role next frames) ∨
    (step policy (.text .value t []) c).IsOver := by
  cases ht : textStep t c with
  | malformed =>
    right
    simp only [step, stepText, ht]
    trivial
  | more next =>
    by_cases hbroken : policy = .strict ∧ next.isBroken
    · right
      simp only [step, stepText, ht, if_pos hbroken]
      trivial
    · left
      exact ⟨next, fun role frames => by simp only [step, stepText, ht, if_neg hbroken]⟩
  | done last =>
    right
    simp only [step, stepText, ht]
    split
    · trivial
    · cases last.result <;> cases policy <;> trivial

/-- Characters that leave a text unfinished leave it so after each of them. If
the text were a whole value its end would be seen, so it is looked at there. -/
theorem staysOpen_of_run_text {t last : TextState} {chars : List Char}
    (h : run policy (.text .value t []) chars = .text .value last []) (role : Role)
    (frames : List Frame) : StaysOpen policy (.text role t frames) chars := by
  induction chars generalizing t with
  | nil => trivial
  | cons c chars ih =>
    rw [run_cons] at h
    refine ⟨rfl, ?_⟩
    rcases step_text_cases policy t c with ⟨next, hnext⟩ | hover
    · rw [hnext] at h ⊢
      exact ih h
    · have hlast : (run policy (step policy (.text .value t []) c) chars).IsOver :=
        isOver_run hover chars
      rw [h] at hlast
      exact hlast.elim

/-- The rest of a written text behind its first quotation mark. -/
theorem staysOpen_quoted (role : Role) (frames : List Frame) (s : List Char) :
    StaysOpen policy (.text role .start frames) (s.flatMap escapeChar ++ ['"']) := by
  have hstart : TextState.start = .holding [] := rfl
  rw [hstart, staysOpen_append, run_escapeChars]
  exact ⟨staysOpen_of_run_text (run_escapeChars policy .value [] s []) role frames, rfl, trivial⟩

/-! ## Numbers -/

theorem le_decimalValue (n : Nat) (digits : List Char) : n ≤ decimalValue n digits := by
  induction digits generalizing n with
  | nil => exact Nat.le_refl n
  | cons c digits ih =>
    calc n ≤ 10 * n + digitValue c := by omega
      _ ≤ decimalValue (10 * n + digitValue c) digits := ih _

/-- The first digits of a number are worth no more than all of them. -/
theorem decimalValue_le_append (digits digits' : List Char) :
    decimalValue 0 digits ≤ decimalValue 0 (digits ++ digits') := by
  have happend : decimalValue 0 (digits ++ digits') =
      decimalValue (decimalValue 0 digits) digits' := by
    simp only [decimalValue, List.foldl_append]
  rw [happend]
  exact le_decimalValue _ _

/-- Inside a container, digits of a number in range do not close anything. -/
theorem isOpen_digits {taken : List Char} (hdigits : ∀ c ∈ taken, c.isDigit = true)
    (hle : decimalValue 0 taken.reverse ≤ maxNatural) (frame : Frame) (frames : List Frame) :
    (State.number .whole taken (frame :: frames)).IsOpen policy := by
  have hall : taken.reverse.all Char.isDigit = true := by
    rw [List.all_reverse]
    exact List.all_eq_true.2 hdigits
  have hnumber : numberOf taken.reverse = some (.natural (decimalValue 0 taken.reverse)) := by
    simp only [numberOf, hall, hle, decide_true, Bool.and_self, if_true]
  simp only [State.IsOpen, State.finish, NumberPart.mayEnd, hnumber, deliverScalar, if_true]
  cases frame <;> rfl

theorem staysOpen_digits {taken digits : List Char} (htaken : ∀ c ∈ taken, c.isDigit = true)
    (hdigits : ∀ c ∈ digits, c.isDigit = true)
    (hle : decimalValue 0 (taken.reverse ++ digits) ≤ maxNatural) (frame : Frame)
    (frames : List Frame) :
    StaysOpen policy (.number .whole taken (frame :: frames)) digits := by
  induction digits generalizing taken with
  | nil => trivial
  | cons c digits ih =>
    have hc : c.isDigit = true := hdigits c List.mem_cons_self
    refine ⟨isOpen_digits htaken (Nat.le_trans (decimalValue_le_append _ _) hle) frame frames, ?_⟩
    rw [step_more_digits hc]
    apply ih
    · exact List.forall_mem_cons.2 ⟨hc, htaken⟩
    · exact fun d hd => hdigits d (List.mem_cons_of_mem c hd)
    · rwa [List.reverse_cons, List.append_assoc, List.singleton_append]

theorem staysOpen_natural {s : State} {frame : Frame} {frames : List Frame}
    (hs : Awaits policy s (frame :: frames)) (hopen : s.IsOpen policy) {n : Nat}
    (hn : n ≤ maxNatural) : StaysOpen policy s (Nat.toDigits 10 n) := by
  by_cases hzero : n = 0
  · rw [hzero, Nat.toDigits_zero]
    exact ⟨hopen, trivial⟩
  · obtain ⟨c, digits, hd, hc⟩ := toDigits_of_pos (Nat.pos_of_ne_zero hzero)
    have hall := isDigit_toDigits n
    have hvalue := decimalValue_toDigits n
    rw [hd] at hall hvalue ⊢
    refine ⟨hopen, ?_⟩
    rw [step_digit hs (hall c List.mem_cons_self) hc]
    apply staysOpen_digits
    · simpa using hall c List.mem_cons_self
    · exact fun d hd => hall d (List.mem_cons_of_mem c hd)
    · rw [List.reverse_singleton, List.singleton_append, hvalue]
      exact hn

/-! ## Containers -/

/-- The reader stays open over the written form of the value wherever a value is
awaited, as far as the frames leave room, except for a number in no container. -/
def ReadsOpen (policy : Policy) (layout : Layout) (room : Nat) (v : Json) : Prop :=
  ∀ (depth : Nat) (s : State) (frames : List Frame), frames.length + room ≤ maxDepth →
    Awaits policy s frames → s.IsOpen policy → (∀ n, v = .natural n → frames ≠ []) →
      StaysOpen policy s (write layout depth v)

theorem staysOpen_value_spaces (frames : List Frame) {spaces : List Char}
    (h : ∀ c ∈ spaces, isSpace c = true) : StaysOpen policy (.value frames) spaces :=
  staysOpen_spaces (passesSpace_value frames) rfl h

/-- What follows the first item of an array, up to the bracket that closes it. -/
theorem staysOpen_writeItems (hl : layout.IsSpaced) {room depth : Nat} {frames : List Frame}
    (hroom : frames.length + 1 + room ≤ maxDepth) {items : List Json}
    (hback : ∀ item ∈ items, ReadsBack policy layout room item)
    (hitems : ∀ item ∈ items, ReadsOpen policy layout room item) (outer : Nat)
    {s : State} {item : Json} {before : List Json}
    (hs : Delivered policy s item (.array before :: frames)) :
    StaysOpen policy s
      (writeItems layout depth items ++ (layout.lineBreak outer ++ [']'])) := by
  -- `item` has been delivered last, as in `run_writeItems`
  induction items generalizing s item before with
  | nil => exact hs.staysOpen_spaces (hl.lineBreak outer) ']'
  | cons next items ih =>
    have hcomma : step policy s ',' = .value (.array (item :: before) :: frames) :=
      hs.next ',' rfl
    have hinner : (Frame.array (item :: before) :: frames).length + room ≤ maxDepth := hroom
    have hnext := hback next List.mem_cons_self depth _ _ hinner (awaits_value _)
    rw [writeItems, List.cons_append, List.append_assoc, List.append_assoc]
    refine ⟨hs.isOpen, ?_⟩
    rw [hcomma, staysOpen_append, run_value_spaces _ (hl.lineBreak depth), staysOpen_append]
    refine ⟨staysOpen_value_spaces _ (hl.lineBreak depth), ?_, ?_⟩
    · exact hitems next List.mem_cons_self depth _ _ hinner (awaits_value _) rfl (by simp)
    · exact ih (fun i hi => hback i (List.mem_cons_of_mem next hi))
        (fun i hi => hitems i (List.mem_cons_of_mem next hi)) hnext

/-- A key, a colon and a value. -/
theorem staysOpen_member (hl : layout.IsSpaced) {room : Nat} {frames : List Frame}
    (hroom : frames.length + 1 + room ≤ maxDepth) (depth : Nat) {v : Json}
    (hv : ReadsOpen policy layout room v) {s : State} {before : List (String × Json)}
    (hs : step policy s '"' = .text (.key (some before)) .start frames)
    (hopen : s.IsOpen policy) (key : String) :
    StaysOpen policy s (quote key ++ (layout.colon ++ write layout depth v)) := by
  obtain ⟨gap, hcolon, hgap⟩ := hl.colon
  have hstep : step policy (.colon (some before) (some key) frames) ':' =
      .value (.member (some before) (some key) :: frames) := rfl
  have hinner : (Frame.member (some before) (some key) :: frames).length + room ≤ maxDepth :=
    hroom
  rw [quote, List.cons_append]
  refine ⟨hopen, ?_⟩
  rw [hs, staysOpen_append, run_quoted_key, hcolon, List.cons_append]
  refine ⟨staysOpen_quoted _ _ _, rfl, ?_⟩
  rw [hstep, staysOpen_append, run_value_spaces _ hgap]
  exact ⟨staysOpen_value_spaces _ hgap, hv depth _ _ hinner (awaits_value _) rfl (by simp)⟩

/-- What follows the first member of an object, up to the brace that closes it. -/
theorem staysOpen_writeMembers (hl : layout.IsSpaced) {room depth : Nat} {frames : List Frame}
    (hroom : frames.length + 1 + room ≤ maxDepth) {members : List (String × Json)}
    (hback : ∀ m ∈ members, ReadsBack policy layout room m.2)
    (hmembers : ∀ m ∈ members, ReadsOpen policy layout room m.2) (outer : Nat)
    {s : State} {key : String} {v : Json} {before : List (String × Json)}
    (hs : Delivered policy s v (.member (some before) (some key) :: frames)) :
    StaysOpen policy s
      (writeMembers layout depth members ++ (layout.lineBreak outer ++ ['\x7d'])) := by
  induction members generalizing s key v before with
  | nil => exact hs.staysOpen_spaces (hl.lineBreak outer) '\x7d'
  | cons m members ih =>
    obtain ⟨key', v'⟩ := m
    have hcomma : step policy s ',' = .nextKey (some ((key, v) :: before)) frames :=
      hs.next ',' rfl
    have hspace : PassesSpace policy (.nextKey (some ((key, v) :: before)) frames) :=
      passesSpace_nextKey _ frames
    have hkey : step policy (.nextKey (some ((key, v) :: before)) frames) '"' =
        .text (.key (some ((key, v) :: before))) .start frames := rfl
    have hnext := delivered_member hl hroom depth (hback _ List.mem_cons_self) hkey key'
    have hparts : writeMembers layout depth ((key', v') :: members) =
        ',' :: (layout.lineBreak depth ++
          ((quote key' ++ (layout.colon ++ write layout depth v')) ++
            writeMembers layout depth members)) := by
      simp only [writeMembers, List.append_assoc]
    rw [hparts, List.cons_append, List.append_assoc, List.append_assoc]
    refine ⟨hs.isOpen, ?_⟩
    rw [hcomma, staysOpen_append, run_spaces hspace (hl.lineBreak depth), staysOpen_append]
    refine ⟨staysOpen_spaces hspace rfl (hl.lineBreak depth), ?_, ?_⟩
    · exact staysOpen_member hl hroom depth (hmembers _ List.mem_cons_self) hkey rfl key'
    · exact ih (fun n hn => hback n (List.mem_cons_of_mem _ hn))
        (fun n hn => hmembers n (List.mem_cons_of_mem _ hn)) hnext

theorem staysOpen_array (hl : layout.IsSpaced) {room : Nat} {items : List Json}
    (hback : ∀ item ∈ items, ReadsBack policy layout room item)
    (hitems : ∀ item ∈ items, ReadsOpen policy layout room item) :
    ReadsOpen policy layout (room + 1) (.array items) := by
  intro depth s frames hroom hs hopen _
  have hbracket := step_bracket hs (by omega)
  have hspace : PassesSpace policy (.firstItem frames) := passesSpace_firstItem frames
  cases items with
  | nil =>
    refine ⟨hopen, ?_⟩
    rw [hbracket]
    exact ⟨rfl, trivial⟩
  | cons item items =>
    have hinner : (Frame.array [] :: frames).length + room ≤ maxDepth := by
      rw [List.length_cons]
      omega
    have hfirst := hback item List.mem_cons_self (depth + 1) _ _ hinner (awaits_firstItem frames)
    refine ⟨hopen, ?_⟩
    rw [hbracket, staysOpen_append, run_spaces hspace (hl.lineBreak _), staysOpen_append]
    refine ⟨staysOpen_spaces hspace rfl (hl.lineBreak _), ?_, ?_⟩
    · exact hitems item List.mem_cons_self _ _ _ hinner (awaits_firstItem frames) rfl (by simp)
    · exact staysOpen_writeItems hl hinner (fun i hi => hback i (List.mem_cons_of_mem item hi))
        (fun i hi => hitems i (List.mem_cons_of_mem item hi)) depth hfirst

theorem staysOpen_object (hl : layout.IsSpaced) {room : Nat} {members : List (String × Json)}
    (hback : ∀ m ∈ members, ReadsBack policy layout room m.2)
    (hmembers : ∀ m ∈ members, ReadsOpen policy layout room m.2) :
    ReadsOpen policy layout (room + 1) (.object members) := by
  intro depth s frames hroom hs hopen _
  have hbrace := step_brace hs (by omega)
  have hspace : PassesSpace policy (.firstKey frames) := passesSpace_firstKey frames
  cases members with
  | nil =>
    refine ⟨hopen, ?_⟩
    rw [hbrace]
    exact ⟨rfl, trivial⟩
  | cons m members =>
    obtain ⟨key, v⟩ := m
    have hinner : frames.length + 1 + room ≤ maxDepth := by omega
    have hkey : step policy (.firstKey frames) '"' = .text (.key (some [])) .start frames := rfl
    have hfirst := delivered_member hl hinner (depth + 1) (hback _ List.mem_cons_self) hkey key
    have hparts : write layout depth (.object ((key, v) :: members)) =
        '\x7b' :: (layout.lineBreak (depth + 1) ++
          ((quote key ++ (layout.colon ++ write layout (depth + 1) v)) ++
            (writeMembers layout (depth + 1) members ++
              (layout.lineBreak depth ++ ['\x7d'])))) := by
      simp only [write, List.append_assoc]
    rw [hparts]
    refine ⟨hopen, ?_⟩
    rw [hbrace, staysOpen_append, run_spaces hspace (hl.lineBreak _), staysOpen_append]
    refine ⟨staysOpen_spaces hspace rfl (hl.lineBreak _), ?_, ?_⟩
    · exact staysOpen_member hl hinner (depth + 1) (hmembers _ List.mem_cons_self) hkey rfl key
    · exact staysOpen_writeMembers hl hinner (fun m hm => hback m (List.mem_cons_of_mem _ hm))
        (fun m hm => hmembers m (List.mem_cons_of_mem _ hm)) depth hfirst

/-! ## Values -/

theorem staysOpen_write (hl : layout.IsSpaced) {room : Nat} {v : Json} (hv : Plain room v) :
    ReadsOpen policy layout room v := by
  induction hv with
  | null =>
    intro depth s frames _ hs hopen _
    refine ⟨hopen, ?_⟩
    rw [hs 'n' rfl (by decide)]
    exact ⟨rfl, rfl, rfl, trivial⟩
  | bool b =>
    intro depth s frames _ hs hopen _
    cases b with
    | false =>
      refine ⟨hopen, ?_⟩
      rw [hs 'f' rfl (by decide)]
      exact ⟨rfl, rfl, rfl, rfl, trivial⟩
    | true =>
      refine ⟨hopen, ?_⟩
      rw [hs 't' rfl (by decide)]
      exact ⟨rfl, rfl, rfl, trivial⟩
  | natural h =>
    intro depth s frames _ hs hopen hinside
    obtain ⟨frame, frames, rfl⟩ := List.exists_cons_of_ne_nil (hinside _ rfl)
    exact staysOpen_natural hs hopen h
  | string t =>
    intro depth s frames _ hs hopen _
    refine ⟨hopen, ?_⟩
    rw [step_quote hs]
    exact staysOpen_quoted _ _ _
  | array hitems ih => exact staysOpen_array hl (fun i hi => delivered_write hl (hitems i hi)) ih
  | object hmembers ih =>
    exact staysOpen_object hl (fun m hm => delivered_write hl (hmembers m hm)) ih

/-- A cut text of a plain value that is no number has ended inside that value. -/
theorem read_cut (hl : layout.IsSpaced) {v : Json} (hv : Plain maxDepth v)
    (hnumber : ∀ n, v ≠ .natural n) {part rest : String} (hcut : part ++ rest = v.text layout)
    (hrest : rest ≠ "") : read policy part = .error .ended := by
  have hopen : StaysOpen policy (.value []) (write layout 0 v) :=
    staysOpen_write hl hv 0 (.value []) [] (by simp) (awaits_value []) rfl
      (fun n heq => absurd heq (hnumber n))
  have hchars : part.toList ++ rest.toList = write layout 0 v := by
    rw [← String.toList_append, hcut, text, String.toList_ofList]
  rw [← hchars] at hopen
  exact hopen.isOpen_cut (by simpa using hrest)

end Mainframe.Json

namespace Mainframe

open Json Command

theorem Outline.toJson_ne_natural (o : Outline) (n : Nat) : o.toJson ≠ .natural n := by
  cases o <;> exact Json.noConfusion

/-- The text of an outline is decoded, and reported on, if and only if nothing is
cut off it; a cut text is known to be one. -/
theorem ofText_cut {layout : Layout} (hl : layout = .compact ∨ layout = .pretty) {o : Outline}
    (ho : o.LinesFit) {part rest : String} (hcut : part ++ rest = o.toText layout)
    (time : String) :
    Outline.ofText part = (if rest = "" then .ok o else .error .ended) ∧
    summarizeText time part =
      (if rest = "" then .ok (Report.ofOutline time o) else .error .ended) := by
  have hspaced : layout.IsSpaced := by
    rcases hl with rfl | rfl
    · exact isSpaced_compact
    · exact isSpaced_pretty
  have hdecoded : Outline.ofText part = if rest = "" then .ok o else .error .ended := by
    split
    next hrest =>
      have hwhole : part = o.toText layout := by
        rw [← hcut, hrest]
        simp
      rw [hwhole, Outline.ofText_toText hspaced ho]
    next hrest =>
      have hplain : Plain maxDepth o.toJson := (Outline.plain_toJson ho).mono (by decide)
      rw [Outline.ofText, read_cut hspaced hplain o.toJson_ne_natural hcut hrest]
  refine ⟨hdecoded, ?_⟩
  rw [summarizeText, hdecoded]
  split <;> rfl

/-- A deck with a control character in the name of a dataset. -/
def controlDeck : Jcl.Outline := { Jcl.Outline.empty with datasets := ["\x01"] }

/-- A program with a call on a line whose number has two digits. -/
def callingProgram : Cobol.Outline :=
  { Cobol.Outline.empty with performs := [⟨"PERFORM_12", "A", 12⟩] }

/-- The deck is cut inside the escape of the character, the program between the
two digits. -/
theorem ofText_cut_in_escape_and_number :
    ((Outline.jcl controlDeck).LinesFit ∧ (Outline.cobol callingProgram).LinesFit) ∧
    (Outline.ofText "\x7b\"job\":\x7b\x7d,\"steps\":[],\"datasets\":[\"\\u00" = .error .ended ∧
      summarizeText "NOON" "\x7b\"job\":\x7b\x7d,\"steps\":[],\"datasets\":[\"\\u00" =
        .error .ended) ∧
    ∃ part, part ++ "2\x7d],\"warnings\":[]\x7d" = (Outline.cobol callingProgram).toText .compact ∧
      Outline.ofText part = .error .ended ∧ summarizeText "NOON" part = .error .ended := by
  have hdeck : (Outline.jcl controlDeck).LinesFit := trivial
  have hprogram : (Outline.cobol callingProgram).LinesFit := by
    constructor <;> simp [callingProgram, Cobol.Outline.empty, maxNatural]
  have hescape : "\x7b\"job\":\x7b\x7d,\"steps\":[],\"datasets\":[\"\\u00" ++
      "01\"],\"warnings\":[]\x7d" = (Outline.jcl controlDeck).toText .compact := by
    decide +kernel
  refine ⟨⟨hdeck, hprogram⟩, ofText_cut (.inl rfl) hdeck hescape "NOON", ?_⟩
  have hnumber : "\x7b\"program_info\":\x7b\x7d,\"divisions\":\x7b\x7d,\"variables\":[]," ++
      "\"paragraphs\":[],\"statements\":[],\"control_flow\":[],\"conditions\":[]," ++
      "\"file_operations\":[],\"performs\":[\x7b\"id\":\"PERFORM_12\",\"target\":\"A\"," ++
      "\"line\":1" ++ "2\x7d],\"warnings\":[]\x7d" =
        (Outline.cobol callingProgram).toText .compact := by
    decide +kernel
  exact ⟨_, hnumber, ofText_cut (.inl rfl) hprogram hnumber "NOON"⟩

end Mainframe
