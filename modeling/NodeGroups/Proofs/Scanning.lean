import Mathlib.Tactic.SplitIfs
import NodeGroups.Json.Printer

/-!
# Scanning what was spelled

A spelled token is scanned as that token. Words, which are what has no brackets or quotes of its
own, end only where something else begins (`Delimited`), and so `Scans` asks for that where
`ScansAnywhere` does not; pieces of either sort are put together by `append`. The blanks of a
layout scan as no tokens at all. Integers are read back as far as they fit 64 bits, and binary
numbers are left out here (`Token.IsPlain`).
-/
namespace NodeGroups.Json

/-! ## Integers in base ten -/

theorem toDigits_head_ne_zero {n : Nat} (pos : 0 < n) : (Nat.toDigits 10 n).head? ≠ some '0' := by
  induction n using Nat.strongRecOn with
  | ind n ih =>
    by_cases small : n < 10
    · rw [Nat.toDigits_of_lt_base small, List.head?_cons]
      simpa using Nat.pos_iff_ne_zero.mp pos
    · have front := ih (n / 10) (by omega) (by omega)
      rw [Nat.toDigits_of_base_le (by omega) (by omega), List.head?_append]
      cases digits : (Nat.toDigits 10 (n / 10)).head? with
      | none => exact absurd (List.head?_eq_none_iff.mp digits) Nat.toDigits_ne_nil
      | some d =>
        rw [digits] at front
        exact front

theorem isDigit_of_mem_natDigits {n : Nat} {c : Char} (h : c ∈ Text.natDigits n) :
    c.isDigit = true := Nat.isDigit_of_mem_toDigits (by omega) (by omega) h

/-- Digits without leading zeros are one whole number. -/
theorem Number.ofUnsigned?_natDigits (negative : Bool) (n : Nat) :
    Number.ofUnsigned? negative (Text.natDigits n) =
      Number.ofWhole? negative (Text.natDigits n) := by
  have all : ∀ c ∈ Text.natDigits n, c.isDigit = true := fun c hc => isDigit_of_mem_natDigits hc
  have taken : (Text.natDigits n).takeWhile Char.isDigit = Text.natDigits n := by
    have whole : (Text.natDigits n ++ []).takeWhile Char.isDigit =
        Text.natDigits n ++ [].takeWhile Char.isDigit := List.takeWhile_append_of_pos all
    simpa using whole
  have left : (Text.natDigits n).dropWhile Char.isDigit = [] := by
    have none : (Text.natDigits n ++ []).dropWhile Char.isDigit =
        [].dropWhile Char.isDigit := List.dropWhile_append_of_pos all
    simpa using none
  have canonical : ¬ (Text.natDigits n = [] ∨
      (Text.natDigits n).length > 1 ∧ (Text.natDigits n).head? = some '0') := by
    rintro (empty | ⟨long, zero⟩)
    · exact Nat.toDigits_ne_nil empty
    · rcases Nat.eq_zero_or_pos n with rfl | pos
      · exact absurd long (by decide)
      · exact toDigits_head_ne_zero pos zero
  simp only [Number.ofUnsigned?, taken, left, if_neg canonical]

/-- Whether an integer fits 64 bits, signed or not. -/
def FitsWord (n : Int) : Prop := -(Int64.size / 2 : Nat) ≤ n ∧ n ≤ Number.significandLimit

theorem Number.digitsValue_natDigits (n : Nat) : Number.digitsValue (Text.natDigits n) = n :=
  Nat.ofDigitChars_ten_toDigits

theorem Number.ofChars?_natDigits (n : Nat) :
    Number.ofChars? (Text.natDigits n) = Number.ofWhole? false (Text.natDigits n) := by
  rw [← ofUnsigned?_natDigits, ofChars?.eq_def]
  split
  · next rest digits =>
    have minus : '-' ∈ Text.natDigits n := by simp [digits]
    exact absurd (isDigit_of_mem_natDigits minus) (by decide)
  · rfl

theorem Number.ofChars?_intDigits {n : Int} (fits : FitsWord n) :
    Number.ofChars? (Text.intDigits n) = some (.int n) := by
  obtain ⟨low, high⟩ := fits
  cases n with
  | ofNat n =>
    have small : n ≤ significandLimit := Int.ofNat_le.mp high
    rw [Text.intDigits, ofChars?_natDigits, ofWhole?, digitsValue_natDigits]
    simp only [Bool.false_eq_true, if_false, if_pos small]
    rfl
  | negSucc n =>
    have small : 0 < n + 1 ∧ n + 1 ≤ Int64.size / 2 := by omega
    change ofUnsigned? true (Text.natDigits (n + 1)) = _
    rw [ofUnsigned?_natDigits, ofWhole?, digitsValue_natDigits]
    simp only [if_true, if_pos small]
    rfl

/-! ## Words -/

/-- A character that a word goes on with. -/
def IsWordChar (c : Char) : Prop := ¬ (isBlank c ∨ c = '"' ∨ (punctuation? c).isSome)

instance (c : Char) : Decidable (IsWordChar c) := inferInstanceAs (Decidable (¬ _))

/-- What ends a word: the end of the text, a blank, a quote or a sign. -/
def Delimited (cs : List Char) : Prop := ∀ c ∈ cs.head?, ¬ IsWordChar c

theorem Delimited.append {cs ds : List Char} (hc : Delimited cs) (hd : Delimited ds) :
    Delimited (cs ++ ds) := by
  cases cs with
  | nil => exact hd
  | cons c cs => exact hc

theorem mem_of_punctuation? {c : Char} (h : (punctuation? c).isSome) :
    c ∈ ['[', ']', '\x7b', '\x7d', ',', ':'] := by
  unfold punctuation? at h
  split_ifs at h <;> simp_all

theorem isWordChar_of_isDigit {c : Char} (h : c.isDigit = true) : IsWordChar c := by
  have stops : [' ', '\n', '\r', '\t', '"', '[', ']', '\x7b', '\x7d', ',', ':'].all
      (fun d => !d.isDigit) = true := rfl
  intro stop
  have mem : c ∈ [' ', '\n', '\r', '\t', '"', '[', ']', '\x7b', '\x7d', ',', ':'] := by
    rcases stop with blank | rfl | sign
    · simp only [isBlank, Bool.or_eq_true, decide_eq_true_eq] at blank
      rcases blank with ((rfl | rfl) | rfl) | rfl <;> simp
    · simp
    · have signs := mem_of_punctuation? sign
      simp only [List.mem_cons, List.not_mem_nil, or_false] at signs
      rcases signs with rfl | rfl | rfl | rfl | rfl | rfl <;> simp
  have other := List.all_eq_true.mp stops c mem
  rw [h] at other
  cases other

/-! ## The scanner, a character at a time -/

theorem scanFrom_cons (state : Unfinished) (c : Char) (rest : List Char) :
    scanFrom state (c :: rest) =
      (step c state).bind fun out => (scanFrom out.2 rest).map (out.1 ++ ·) := by
  have unfolded : scanFrom state (c :: rest) = (step c state).bind fun out =>
      (scanFrom out.2 rest).bind fun more => some (out.1 ++ more) := by cases state <;> rfl
  rw [unfolded]
  congr 1
  funext out
  cases scanFrom out.2 rest <;> rfl

theorem scanFrom_silent {state next : Unfinished} {c : Char} (h : step c state = some ([], next))
    (rest : List Char) : scanFrom state (c :: rest) = scanFrom next rest := by
  rw [scanFrom_cons, h, Option.bind_some]
  cases scanFrom next rest <;> rfl

theorem scanFrom_done {state next : Unfinished} {c : Char} {t : Token}
    (h : step c state = some ([t], next)) (rest : List Char) :
    scanFrom state (c :: rest) = (scanFrom next rest).map (t :: ·) := by
  rw [scanFrom_cons, h]
  rfl

/-- The characters are scanned as the tokens, whatever comes after them. -/
def ScansAnywhere (cs : List Char) (ts : List Token) : Prop :=
  ∀ rest, scanFrom .nothing (cs ++ rest) = (scanFrom .nothing rest).map (ts ++ ·)

/-- The characters are scanned as the tokens where something else begins after them. -/
def Scans (cs : List Char) (ts : List Token) : Prop :=
  ∀ rest, Delimited rest →
    scanFrom .nothing (cs ++ rest) = (scanFrom .nothing rest).map (ts ++ ·)

section
variable {cs ds : List Char} {ts us : List Token}

theorem ScansAnywhere.scans (h : ScansAnywhere cs ts) : Scans cs ts := fun rest _ => h rest

theorem ScansAnywhere.append (h : ScansAnywhere cs ts) (k : Scans ds us) :
    Scans (cs ++ ds) (ts ++ us) := by
  intro rest ends
  rw [List.append_assoc, h, k rest ends, Option.map_map]
  simp [Function.comp_def, List.append_assoc]

theorem Scans.append (h : Scans cs ts) (opens : Delimited ds) (k : Scans ds us) :
    Scans (cs ++ ds) (ts ++ us) := by
  intro rest ends
  rw [List.append_assoc, h _ (opens.append ends), k rest ends, Option.map_map]
  simp [Function.comp_def, List.append_assoc]

end

theorem scansAnywhere_sign {c : Char} {t : Token} (h : step c .nothing = some ([t], .nothing)) :
    ScansAnywhere [c] [t] := fun rest => scanFrom_done h rest

theorem scansAnywhere_blanks {cs : List Char} (blank : cs.all isBlank = true) :
    ScansAnywhere cs [] := by
  intro rest
  induction cs with
  | nil => simp
  | cons c cs ih =>
    rw [List.all_cons, Bool.and_eq_true] at blank
    have skipped : step c .nothing = some ([], .nothing) := by
      rw [step, openStep, if_pos blank.1]
    rw [List.cons_append, scanFrom_silent skipped]
    exact ih blank.2

/-! ## Words -/

theorem openStep_of_isWordChar {c : Char} (h : IsWordChar c) :
    openStep c = some ([], .word [c]) := by
  simp only [IsWordChar, not_or, Option.not_isSome_iff_eq_none] at h
  obtain ⟨blank, quote, sign⟩ := h
  rw [openStep, if_neg blank, if_neg quote, sign]

theorem scanFrom_word {w : List Char} (all : ∀ c ∈ w, IsWordChar c) (reversed rest : List Char) :
    scanFrom (.word reversed) (w ++ rest) = scanFrom (.word (w.reverse ++ reversed)) rest := by
  induction w generalizing reversed with
  | nil => rfl
  | cons c w ih =>
    have on : step c (.word reversed) = some ([], .word (c :: reversed)) := by
      rw [step, if_neg (all c List.mem_cons_self)]
    rw [List.cons_append, scanFrom_silent on, ih fun d hd => all d (List.mem_cons_of_mem c hd)]
    simp

theorem scanFrom_word_end {reversed rest : List Char} {t : Token} (ends : Delimited rest)
    (spelled : wordToken? reversed.reverse = some t) :
    scanFrom (.word reversed) rest = (scanFrom .nothing rest).map (t :: ·) := by
  cases rest with
  | nil =>
    change (wordToken? reversed.reverse).map (fun t => [t]) = _
    rw [spelled]
    rfl
  | cons c rest =>
    have stop := ends c rfl
    rw [IsWordChar, Classical.not_not] at stop
    have ended : step c (.word reversed) =
        (openStep c).map fun out => (t :: out.1, out.2) := by
      rw [step, if_pos stop, spelled]
      cases openStep c <;> rfl
    rw [scanFrom_cons, scanFrom_cons, ended, step]
    cases openStep c with
    | none => rfl
    | some out =>
      simp only [Option.map_some, Option.bind_some, Option.map_map]
      rfl

theorem forall_isWordChar {w : List Char} (all : w.all (fun c => decide (IsWordChar c)) = true) :
    ∀ c ∈ w, IsWordChar c := fun c hc => of_decide_eq_true (List.all_eq_true.mp all c hc)

theorem scans_word {w : List Char} {t : Token} (all : ∀ c ∈ w, IsWordChar c)
    (spelled : wordToken? w = some t) : Scans w [t] := by
  intro rest ends
  cases w with
  | nil => cases spelled
  | cons c w =>
    have first : step c .nothing = some ([], .word [c]) :=
      openStep_of_isWordChar (all c List.mem_cons_self)
    rw [List.cons_append, scanFrom_silent first,
      scanFrom_word fun d hd => all d (List.mem_cons_of_mem c hd)]
    refine scanFrom_word_end ends ?_
    simpa using spelled

theorem isWordChar_of_mem_intDigits {n : Int} {c : Char} (h : c ∈ Text.intDigits n) :
    IsWordChar c := by
  cases n with
  | ofNat n => exact isWordChar_of_isDigit (isDigit_of_mem_natDigits h)
  | negSucc n =>
    rcases List.mem_cons.mp h with rfl | h
    · decide
    · exact isWordChar_of_isDigit (isDigit_of_mem_natDigits h)

/-- No integer is spelled like one of the three names. -/
theorem wordToken?_of_number {c : Char} {w : List Char} (first : c.isDigit = true ∨ c = '-') :
    wordToken? (c :: w) = (Number.ofChars? (c :: w)).map Token.ofNumber := by
  have apart {d : Char} {v : List Char} (letter : d.isDigit = false ∧ d ≠ '-') :
      c :: w ≠ d :: v := by
    intro he
    cases he
    rcases first with digit | minus
    · rw [letter.1] at digit
      cases digit
    · exact letter.2 minus
  have null : c :: w ≠ "null".toList := apart (by decide)
  have yes : c :: w ≠ "true".toList := apart (by decide)
  have no : c :: w ≠ "false".toList := apart (by decide)
  rw [wordToken?, if_neg null, if_neg yes, if_neg no]

theorem wordToken?_intDigits {n : Int} (fits : FitsWord n) :
    wordToken? (Text.intDigits n) = some (.int n) := by
  have number : wordToken? (Text.intDigits n) =
      (Number.ofChars? (Text.intDigits n)).map Token.ofNumber := by
    cases n with
    | ofNat n =>
      cases digits : Text.natDigits n with
      | nil => exact absurd digits Nat.toDigits_ne_nil
      | cons d ds =>
        rw [Text.intDigits, digits]
        exact wordToken?_of_number (Or.inl (isDigit_of_mem_natDigits (digits ▸ List.mem_cons_self)))
    | negSucc n => exact wordToken?_of_number (Or.inr rfl)
  rw [number, Number.ofChars?_intDigits fits]
  rfl

/-! ## Texts -/

theorem controlEscape_of_lt : ∀ n < 32,
    controlEscape (Char.ofNat n) =
      ['\\', 'u', '0', '0', Nat.digitChar (n / 16), Nat.digitChar (n % 16)] ∧
    hexDigit? (Nat.digitChar (n / 16)) = some (n / 16) ∧
    hexDigit? (Nat.digitChar (n % 16)) = some (n % 16) := by decide

theorem afterCode_of_control {c : Char} (h : c.toNat < 32) (reversed : List Char) :
    afterCode reversed ((0 * 16 + c.toNat / 16) * 16 + c.toNat % 16) =
      some (.quotation (c :: reversed)) := by
  have value : (0 * 16 + c.toNat / 16) * 16 + c.toNat % 16 = c.toNat := by omega
  rw [value, afterCode, if_neg (by omega), if_neg (by omega), Char.ofNat_toNat]

/-- A control character is read back from its four hexadecimal digits. -/
theorem scanFrom_controlEscape {c : Char} (h : c < ' ') (reversed rest : List Char) :
    scanFrom (.quotation reversed) (controlEscape c ++ rest) =
      scanFrom (.quotation (c :: reversed)) rest := by
  have small : c.toNat < 32 := h
  obtain ⟨spelled, high, low⟩ := controlEscape_of_lt c.toNat small
  rw [Char.ofNat_toNat] at spelled
  have third : step (Nat.digitChar (c.toNat / 16)) (.code reversed 2 0) =
      some ([], .code reversed 1 (0 * 16 + c.toNat / 16)) := by
    rw [step, high]
    rfl
  have fourth : step (Nat.digitChar (c.toNat % 16)) (.code reversed 1 (0 * 16 + c.toNat / 16)) =
      some ([], .quotation (c :: reversed)) := by
    rw [step, low, Option.bind_eq_bind, Option.bind_some, if_pos rfl,
      afterCode_of_control small]
    rfl
  calc scanFrom (.quotation reversed) (controlEscape c ++ rest)
      = scanFrom (.escape reversed) ('u' :: '0' :: '0' :: Nat.digitChar (c.toNat / 16) ::
          Nat.digitChar (c.toNat % 16) :: rest) := by rw [spelled]; exact scanFrom_silent rfl _
    _ = scanFrom (.code reversed 4 0) ('0' :: '0' :: Nat.digitChar (c.toNat / 16) ::
          Nat.digitChar (c.toNat % 16) :: rest) := scanFrom_silent rfl _
    _ = scanFrom (.code reversed 3 0) ('0' :: Nat.digitChar (c.toNat / 16) ::
          Nat.digitChar (c.toNat % 16) :: rest) := scanFrom_silent rfl _
    _ = scanFrom (.code reversed 2 0) (Nat.digitChar (c.toNat / 16) ::
          Nat.digitChar (c.toNat % 16) :: rest) := scanFrom_silent rfl _
    _ = scanFrom (.code reversed 1 (0 * 16 + c.toNat / 16))
          (Nat.digitChar (c.toNat % 16) :: rest) := scanFrom_silent third _
    _ = scanFrom (.quotation (c :: reversed)) rest := scanFrom_silent fourth _

/-- Each character of a text is read back from what it is written as. -/
theorem scanFrom_escapedChar (c : Char) (reversed rest : List Char) :
    scanFrom (.quotation reversed) (escapedChar c ++ rest) =
      scanFrom (.quotation (c :: reversed)) rest := by
  have short (mark : Char) (marked : mark ≠ 'u') (read : unescaped? mark = some c) :
      scanFrom (.quotation reversed) (['\\', mark] ++ rest) =
        scanFrom (.quotation (c :: reversed)) rest := by
    have second : step mark (.escape reversed) = some ([], .quotation (c :: reversed)) := by
      rw [step, if_neg marked, read]
      rfl
    exact (scanFrom_silent rfl _).trans (scanFrom_silent second _)
  unfold escapedChar
  split_ifs with quote backslash backspace feed line carriage tab control
  · exact short '"' (by decide) (by rw [quote]; rfl)
  · exact short '\\' (by decide) (by rw [backslash]; rfl)
  · exact short 'b' (by decide) (by rw [backspace]; rfl)
  · exact short 'f' (by decide) (by rw [feed]; rfl)
  · exact short 'n' (by decide) (by rw [line]; rfl)
  · exact short 'r' (by decide) (by rw [carriage]; rfl)
  · exact short 't' (by decide) (by rw [tab]; rfl)
  · exact scanFrom_controlEscape control reversed rest
  · refine scanFrom_silent ?_ rest
    rw [step, if_neg quote, if_neg backslash, if_neg control]

theorem scanFrom_quotation (cs reversed rest : List Char) :
    scanFrom (.quotation reversed) (cs.flatMap escapedChar ++ '"' :: rest) =
      (scanFrom .nothing rest).map (.text (String.ofList (reversed.reverse ++ cs)) :: ·) := by
  induction cs generalizing reversed with
  | nil =>
    rw [List.append_nil]
    exact scanFrom_done rfl rest
  | cons c cs ih =>
    rw [List.flatMap_cons, List.append_assoc, scanFrom_escapedChar, ih]
    simp

theorem scansAnywhere_spellText (s : String) : ScansAnywhere (spellText s) [.text s] := by
  intro rest
  have opened : step '"' .nothing = some ([], .quotation []) := rfl
  rw [spellText, List.cons_append, List.cons_append, List.append_assoc, scanFrom_silent opened]
  simpa using scanFrom_quotation s.toList [] rest

/-! ## All tokens -/

/-- A token that is read back as it was: no binary number, and no integer past 64 bits. -/
def Token.IsPlain : Token → Prop
  | .int n => FitsWord n
  | .binary _ => False
  | _ => True

/-- A value all of whose tokens are read back. -/
def IsPlain (j : Json) : Prop := ∀ t ∈ j.tokens, t.IsPlain

theorem scans_spell {t : Token} (plain : t.IsPlain) : Scans t.spell [t] := by
  cases t with
  | arrayOpen | arrayClose | objectOpen | objectClose | comma | colon =>
    exact (scansAnywhere_sign rfl).scans
  | null => exact scans_word (forall_isWordChar rfl) rfl
  | bool value =>
    cases value with
    | true => exact scans_word (forall_isWordChar rfl) rfl
    | false => exact scans_word (forall_isWordChar rfl) rfl
  | int n =>
    exact scans_word (fun c hc => isWordChar_of_mem_intDigits hc) (wordToken?_intDigits plain)
  | binary x => exact plain.elim
  | text s => exact (scansAnywhere_spellText s).scans

/-! ## Layouts -/

theorem scansAnywhere_newline (depth : Nat) : ScansAnywhere (newline depth) [] := by
  refine scansAnywhere_blanks ?_
  rw [newline, List.all_cons, List.all_replicate]
  split <;> rfl

theorem delimited_newline (depth : Nat) (cs : List Char) : Delimited (newline depth ++ cs) := by
  intro c hc
  cases hc
  decide

/-- Brackets around what scans, with the closing one on a line of its own. -/
theorem scans_bracketed {opening closing : Char} {first last : Token} {cs : List Char}
    {ts : List Token} (opens : step opening .nothing = some ([first], .nothing))
    (closes : step closing .nothing = some ([last], .nothing)) (depth : Nat) (h : Scans cs ts) :
    Scans (opening :: cs ++ newline depth ++ [closing]) (first :: ts ++ [last]) := by
  have ending : Scans (newline depth ++ [closing]) [last] :=
    (scansAnywhere_newline depth).append (scansAnywhere_sign closes).scans
  have inner := h.append (delimited_newline depth [closing]) ending
  simpa using (scansAnywhere_sign opens).append inner

/-- What comes after a comma comes after the value before it. -/
theorem Scans.comma {cs ds : List Char} {ts us : List Token} (h : Scans cs ts) (k : Scans ds us) :
    Scans (cs ++ ',' :: ds) (ts ++ .comma :: us) := by
  have separator : ScansAnywhere [','] [.comma] := scansAnywhere_sign rfl
  refine h.append ?_ (separator.append k)
  intro c hc
  cases hc
  decide

/-- A member is a name, a colon and a value. -/
theorem scans_member {cs : List Char} {ts : List Token} (depth : Nat) (name : String)
    (h : Scans cs ts) :
    Scans (newline depth ++ spellText name ++ ':' :: ' ' :: cs) (.text name :: .colon :: ts) := by
  have colon : ScansAnywhere [':'] [.colon] := scansAnywhere_sign rfl
  have blank : ScansAnywhere [' '] [] := scansAnywhere_blanks rfl
  have value := (scansAnywhere_spellText name).append (colon.append (blank.append h))
  simpa using (scansAnywhere_newline depth).append value

mutual

/-- A layout is scanned as the tokens of the value. -/
theorem scans_layout (depth : Nat) : ∀ j : Json, j.IsPlain → Scans (layout depth j) j.tokens
  | .null, _ => scans_spell (t := .null) trivial
  | .bool b, _ => scans_spell (t := .bool b) trivial
  | .int n, plain => scans_spell (t := .int n) (plain _ (List.mem_singleton_self _))
  | .binary _, plain => (plain _ (List.mem_singleton_self _)).elim
  | .text s, _ => scans_spell (t := .text s) trivial
  | .array [], _ => by
    have opens : ScansAnywhere ['['] [.arrayOpen] := scansAnywhere_sign rfl
    have closes : ScansAnywhere [']'] [.arrayClose] := scansAnywhere_sign rfl
    exact opens.append closes.scans
  | .array (item :: rest), plain => by
    have items := scansItems_layout (depth + 1) (item :: rest) fun t ht =>
      plain t (by simp [tokens, ht])
    exact scans_bracketed rfl rfl depth items
  | .object [], _ => by
    have opens : ScansAnywhere ['\x7b'] [.objectOpen] := scansAnywhere_sign rfl
    have closes : ScansAnywhere ['\x7d'] [.objectClose] := scansAnywhere_sign rfl
    exact opens.append closes.scans
  | .object (member :: rest), plain => by
    have members := scansMembers_layout (depth + 1) (member :: rest) fun t ht =>
      plain t (by simp [tokens, ht])
    exact scans_bracketed rfl rfl depth members

theorem scansItems_layout (depth : Nat) : ∀ items : List Json,
    (∀ t ∈ itemTokens items, t.IsPlain) → Scans (layoutItems depth items) (itemTokens items)
  | [], _ => fun _ _ => by simp [layoutItems, itemTokens]
  | [item], plain =>
    (scansAnywhere_newline depth).append (scans_layout depth item plain)
  | item :: next :: rest, plain => by
    have head := scans_layout depth item fun t ht => plain t (by simp [itemTokens, ht])
    have tail := scansItems_layout depth (next :: rest) fun t ht =>
      plain t (by simp [itemTokens, ht])
    have first := (scansAnywhere_newline depth).append head
    exact first.comma tail

theorem scansMembers_layout (depth : Nat) : ∀ members : List (String × Json),
    (∀ t ∈ memberTokens members, t.IsPlain) →
      Scans (layoutMembers depth members) (memberTokens members)
  | [], _ => fun _ _ => by simp [layoutMembers, memberTokens]
  | [(name, value)], plain => by
    have held := scans_layout depth value fun t ht => plain t (by simp [memberTokens, ht])
    exact scans_member depth name held
  | (name, value) :: next :: rest, plain => by
    have held := scans_layout depth value fun t ht => plain t (by simp [memberTokens, ht])
    have tail := scansMembers_layout depth (next :: rest) fun t ht =>
      plain t (by simp [memberTokens, ht])
    exact (scans_member depth name held).comma tail

end

/-- Blanks may follow. -/
theorem scan_indented {j : Json} (plain : j.IsPlain) {cs : List Char}
    (blank : cs.all isBlank = true) : scan (layout 0 j ++ cs) = some j.tokens := by
  have ends : Delimited cs := by
    intro c hc
    have skipped := List.all_eq_true.mp blank c (List.mem_of_mem_head? hc)
    exact fun word => word (Or.inl skipped)
  have after := scansAnywhere_blanks blank []
  rw [List.append_nil] at after
  rw [scan, scans_layout 0 j plain cs ends, after]
  simp [scanFrom]

end NodeGroups.Json
