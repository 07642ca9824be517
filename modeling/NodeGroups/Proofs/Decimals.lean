import NodeGroups.Text.Decimal

/-!
# What a decimal text spells

`Spells` is the grammar of the integers in base ten, with no limit on their size: digits,
leading zeros allowed, after a minus sign or none. Reading a word of 32 bits answers exactly
the texts of the grammar whose integer is such a word. What is written in base ten is one of
these texts.
-/
namespace NodeGroups.Text

/-- The number that digits make when they continue another one. -/
def continued (start : Nat) (ds : List Char) : Nat :=
  ds.foldl (fun value d => value * 10 + (d.toNat - '0'.toNat)) start

def IsDigit (c : Char) : Prop := '0' ≤ c ∧ c ≤ '9'

instance (c : Char) : Decidable (IsDigit c) := inferInstanceAs (Decidable (_ ∧ _))

/-- A text of base ten and the integer that it stands for. -/
inductive Spells : List Char → Int → Prop where
  | digits {ds : List Char} (some : ds ≠ []) (all : ∀ d ∈ ds, IsDigit d) :
      Spells ds (continued 0 ds)
  | negated {ds : List Char} (some : ds ≠ []) (all : ∀ d ∈ ds, IsDigit d) :
      Spells ('-' :: ds) (-(continued 0 ds : Int))

theorem le_continued (start : Nat) (ds : List Char) : start ≤ continued start ds := by
  induction ds generalizing start with
  | nil => exact Nat.le_refl _
  | cons d ds ih =>
    have step := ih (start * 10 + (d.toNat - '0'.toNat))
    rw [continued, List.foldl_cons, ← continued]
    omega

theorem digit?_of_isDigit {c : Char} (h : IsDigit c) :
    digit? c = some (c.toNat - '0'.toNat) := if_pos h

theorem digit?_eq_none_iff {c : Char} : digit? c = none ↔ ¬ IsDigit c := by
  rw [digit?]
  split
  · next h => simp [IsDigit, h]
  · next h => simpa [IsDigit] using h

/-- What stands read already is within the limit; then only the whole number matters, since
a number never gets smaller by going on. -/
theorem readDigits_eq_ok_iff {limit value n : Nat} {past : NumberFault} {cs : List Char}
    (within : value ≤ limit) : readDigits limit past value cs = .ok n ↔
      (∀ c ∈ cs, IsDigit c) ∧ n = continued value cs ∧ n ≤ limit := by
  induction cs generalizing value with
  | nil =>
    simp only [readDigits, Except.ok.injEq, List.not_mem_nil, false_implies, implies_true,
      true_and, continued, List.foldl_nil]
    constructor
    · rintro rfl
      exact ⟨rfl, within⟩
    · exact fun h => h.1.symm
  | cons c rest ih =>
    by_cases hc : IsDigit c
    · simp only [readDigits, digit?_of_isDigit hc, List.forall_mem_cons, hc, true_and]
      have grown := le_continued (value * 10 + (c.toNat - '0'.toNat)) rest
      split
      · next fits => exact ih fits
      · next past =>
        simp only [reduceCtorEq, false_iff, not_and]
        rintro - rfl
        rw [continued, List.foldl_cons, ← continued]
        omega
    · simp [readDigits, digit?_eq_none_iff.mpr hc, hc]

theorem readNat_eq_ok_iff {limit n : Nat} {past : NumberFault} {cs : List Char} :
    readNat limit past cs = .ok n ↔
      cs ≠ [] ∧ (∀ c ∈ cs, IsDigit c) ∧ n = continued 0 cs ∧ n ≤ limit := by
  cases cs with
  | nil => simp [readNat]
  | cons c rest => simp [readNat, readDigits_eq_ok_iff (Nat.zero_le limit)]

theorem minus_not_isDigit : ¬ IsDigit '-' := by decide

/-- Digits that are read as a natural number and then taken for an integer. -/
theorem map_read_eq_ok_iff {limit : Nat} {past : NumberFault} {ds : List Char} {f : Int → Int32}
    {n : Int32} : (do let m ← readNat limit past ds; pure (m : Int)).map f = .ok n ↔
      ds ≠ [] ∧ (∀ d ∈ ds, IsDigit d) ∧ continued 0 ds ≤ limit ∧ f (continued 0 ds) = n := by
  cases hr : readNat limit past ds with
  | error fault =>
    change Except.error fault = Except.ok n ↔ _
    simp only [reduceCtorEq, false_iff]
    rintro ⟨hne, all, fits, -⟩
    rw [readNat_eq_ok_iff.mpr ⟨hne, all, rfl, fits⟩] at hr
    cases hr
  | ok m =>
    obtain ⟨hne, all, rfl, fits⟩ := readNat_eq_ok_iff.mp hr
    change Except.ok (f (continued 0 ds)) = Except.ok n ↔ _
    simp only [Except.ok.injEq, ne_eq]
    exact ⟨fun h => ⟨hne, all, fits, h⟩, fun h => h.2.2.2⟩

/-- A negated number reaches one further than a plain one, as words of 32 bits do. -/
theorem readInt32_eq_ok_iff {cs : List Char} {n : Int32} :
    readInt32 cs = .ok n ↔ Spells cs n.toInt := by
  have low := Int32.le_toInt n
  have high := Int32.toInt_lt n
  have size : Int32.size = 4294967296 := rfl
  unfold readInt32
  split
  · constructor
    · intro h
      cases h
    · intro h
      generalize n.toInt = k at h
      cases h with
      | digits some _ => exact absurd rfl some
  · next ds =>
    rw [map_read_eq_ok_iff]
    constructor
    · rintro ⟨hne, all, fits, rfl⟩
      rw [Int32.toInt_ofInt_of_le (by omega) (by omega)]
      exact .negated hne all
    · intro h
      generalize hk : n.toInt = k at h
      cases h with
      | digits _ all => exact absurd (all '-' List.mem_cons_self) minus_not_isDigit
      | negated hne all => exact ⟨hne, all, by omega, by rw [← hk, Int32.ofInt_toInt]⟩
  · next empty minus =>
    rw [map_read_eq_ok_iff]
    constructor
    · rintro ⟨hne, all, fits, rfl⟩
      rw [Int32.toInt_ofInt_of_le (by omega) (by omega)]
      exact .digits hne all
    · intro h
      generalize hk : n.toInt = k at h
      cases h with
      | digits hne all => exact ⟨hne, all, by omega, by rw [← hk, Int32.ofInt_toInt]⟩
      | negated _ _ => exact absurd rfl (minus _)

/-! ## What is written is spelled -/

theorem isDigit_of_char {c : Char} (h : c.isDigit = true) : IsDigit c := by
  simpa [IsDigit, Char.isDigit, Char.le_def] using h

theorem continued_eq_ofDigitChars (start : Nat) (ds : List Char) :
    continued start ds = Nat.ofDigitChars 10 ds start := by
  have step : (fun value (d : Char) => value * 10 + (d.toNat - '0'.toNat)) =
      fun value d => 10 * value + (d.toNat - '0'.toNat) := by
    funext value d
    rw [Nat.mul_comm]
  rw [continued, step, Nat.ofDigitChars]

theorem continued_natDigits (n : Nat) : continued 0 (natDigits n) = n := by
  rw [continued_eq_ofDigitChars, natDigits, Nat.ofDigitChars_ten_toDigits]

theorem isDigit_of_mem_natDigits {n : Nat} : ∀ d ∈ natDigits n, IsDigit d := fun _ hd =>
  isDigit_of_char (Nat.isDigit_of_mem_toDigits (by omega) (by omega) hd)

/-- An integer in base ten spells itself. -/
theorem spells_intDigits (n : Int) : Spells (intDigits n) n := by
  cases n with
  | ofNat n =>
    have own : Spells (natDigits n) (continued 0 (natDigits n)) :=
      .digits Nat.toDigits_ne_nil isDigit_of_mem_natDigits
    rwa [continued_natDigits] at own
  | negSucc n =>
    have own : Spells ('-' :: natDigits (n + 1)) (-(continued 0 (natDigits (n + 1)) : Int)) :=
      .negated Nat.toDigits_ne_nil isDigit_of_mem_natDigits
    rwa [continued_natDigits] at own

theorem spells_decimal32 (n : Int32) : Spells (decimal32 n).toList n.toInt := by
  rw [decimal32, decimal, String.toList_ofList]
  exact spells_intDigits n.toInt

end NodeGroups.Text
