import NodeGroups.Directory
import NodeGroups.Proofs.Decimals

/-!
# Which annotations declare bounds

Bounds are declared by two values that spell words of 32 bits, the first no less than zero and
no more than the second (`Bounds.Declared`). Annotations with both values either declare
bounds or are misconfigured, and then the error names the object that carries them and the
annotation at fault (`Bounds.AtFault`). A root makes a node group when the bounds it declares have
room and it wants at least one replica.
-/
namespace NodeGroups

namespace Bounds

/-- What two annotation values have to spell. -/
structure Declared (min max : String) (b : Bounds) : Prop where
  min : Text.Spells min.toList b.min.toInt
  max : Text.Spells max.toList b.max.toInt
  nonneg : 0 ≤ b.min.toInt
  ordered : b.min.toInt ≤ b.max.toInt

/-- A plus sign is refused apart, and would be no digit either. -/
theorem readSize_eq_ok_iff {value : String} {n : Int32} :
    readSize value = .ok n ↔ Text.Spells value.toList n.toInt := by
  rw [readSize]
  split
  · next plus =>
    simp only [reduceCtorEq, false_iff]
    intro h
    generalize n.toInt = k at h
    have none : ¬ Text.IsDigit '+' := by decide
    obtain ⟨rest, hs⟩ := List.head?_eq_some_iff.mp plus
    rw [hs] at h
    cases h with
    | digits _ all => exact none (all '+' List.mem_cons_self)
  · rw [← Text.readInt32_eq_ok_iff]
    cases Text.readInt32 value.toList with
    | error fault => simp
    | ok m => simp

theorem ofValues_eq_ok_iff {min max : String} {b : Bounds} :
    ofValues min max = .ok b ↔ Declared min max b := by
  constructor
  · intro h
    rw [ofValues] at h
    split at h
    · cases h
    · cases h
    · next lower upper hmin hmax =>
      split at h
      · cases h
      · next hneg =>
        split at h
        · cases h
        · next hinv =>
          cases h
          rw [Int32.not_lt, Int32.le_iff_toInt_le] at hneg hinv
          exact ⟨readSize_eq_ok_iff.mp hmin, readSize_eq_ok_iff.mp hmax, hneg, hinv⟩
  · intro h
    have hneg : ¬ b.min < 0 := Int32.not_lt.mpr (Int32.le_iff_toInt_le.mpr h.nonneg)
    have hinv : ¬ b.max < b.min := Int32.not_lt.mpr (Int32.le_iff_toInt_le.mpr h.ordered)
    rw [ofValues, readSize_eq_ok_iff.mpr h.min, readSize_eq_ok_iff.mpr h.max]
    simp only [if_neg hneg, if_neg hinv]

section
variable {resource : String} {annotations : StringMap}

theorem ofAnnotations_eq_none_iff : ofAnnotations resource annotations = .ok none ↔
    annotations.lookup minSizeEntry = none ∨ annotations.lookup maxSizeEntry = none := by
  rw [ofAnnotations]
  split
  · next min max hmin hmax =>
    cases ofValues min max <;> simp [hmin, hmax]
  · next absent =>
    simp only [true_iff]
    cases hmin : annotations.lookup minSizeEntry with
    | none => exact Or.inl rfl
    | some min =>
      cases hmax : annotations.lookup maxSizeEntry with
      | none => exact Or.inr rfl
      | some max => exact False.elim (absent min max hmin hmax)

theorem ofAnnotations_eq_some_iff {b : Bounds} :
    ofAnnotations resource annotations = .ok (some b) ↔
      ∃ min max, annotations.lookup minSizeEntry = some min ∧
        annotations.lookup maxSizeEntry = some max ∧ Declared min max b := by
  rw [ofAnnotations]
  split
  · next min max hmin hmax =>
    simp only [hmin, hmax, Option.some.injEq, exists_and_left, exists_eq_left',
      ← ofValues_eq_ok_iff]
    cases ofValues min max <;> simp
  · next absent =>
    simp only [Except.ok.injEq, reduceCtorEq, false_iff]
    rintro ⟨min, max, hmin, hmax, -⟩
    exact absent min max hmin hmax

/-- Two values that declare nothing make the one error that annotations can lead to. -/
theorem ofAnnotations_eq_error {e : Error} (h : ofAnnotations resource annotations = .error e) :
    (∃ min max, annotations.lookup minSizeEntry = some min ∧
      annotations.lookup maxSizeEntry = some max ∧ ∀ b, ¬ Declared min max b) ∧
    ∃ field message, e = .validation resource (some field) message := by
  rw [ofAnnotations] at h
  split at h
  · next min max hmin hmax =>
    cases hv : ofValues min max with
    | ok b => simp [hv] at h
    | error fault =>
      simp only [hv, Except.error.injEq] at h
      refine ⟨⟨min, max, hmin, hmax, fun b hb => ?_⟩, fault.1, fault.2.message, h.symm⟩
      rw [ofValues_eq_ok_iff.mpr hb] at hv
      cases hv
  · cases h

end

/-! ## The annotation at fault -/

/-- The annotation that keeps two values from declaring bounds: the first one whose value is no
word of 32 bits; else the smallest size, if it is below zero; else the largest, if it is below the
smallest. -/
inductive AtFault (min max : String) : String → Prop where
  | minUnread (unread : ∀ n : Int32, ¬ Text.Spells min.toList n.toInt) :
      AtFault min max minSizeEntry
  | maxUnread {lower : Int32} (hmin : Text.Spells min.toList lower.toInt)
      (unread : ∀ n : Int32, ¬ Text.Spells max.toList n.toInt) : AtFault min max maxSizeEntry
  | negative {lower upper : Int32} (hmin : Text.Spells min.toList lower.toInt)
      (hmax : Text.Spells max.toList upper.toInt) (below : lower.toInt < 0) :
      AtFault min max minSizeEntry
  | inverted {lower upper : Int32} (hmin : Text.Spells min.toList lower.toInt)
      (hmax : Text.Spells max.toList upper.toInt) (nonneg : 0 ≤ lower.toInt)
      (below : upper.toInt < lower.toInt) : AtFault min max maxSizeEntry

theorem readSize_error_iff {value : String} : (∃ fault, readSize value = .error fault) ↔
    ∀ n : Int32, ¬ Text.Spells value.toList n.toInt := by
  simp only [← readSize_eq_ok_iff]
  cases readSize value <;> simp

/-- Two values that declare nothing are refused at the annotation that is at fault. -/
theorem atFault_of_ofValues {min max field : String} {fault : BoundsFault}
    (h : ofValues min max = .error (field, fault)) : AtFault min max field := by
  rw [ofValues] at h
  split at h
  · next failed =>
    cases h
    exact .minUnread (readSize_error_iff.mp ⟨_, failed⟩)
  · next lower _ hmin failed =>
    cases h
    exact .maxUnread (readSize_eq_ok_iff.mp hmin) (readSize_error_iff.mp ⟨_, failed⟩)
  · next lower upper hmin hmax =>
    split at h
    · next below =>
      cases h
      exact .negative (readSize_eq_ok_iff.mp hmin) (readSize_eq_ok_iff.mp hmax)
        (Int32.lt_iff_toInt_lt.mp below)
    · next nonneg =>
      split at h
      · next below =>
        cases h
        rw [Int32.not_lt, Int32.le_iff_toInt_le] at nonneg
        exact .inverted (readSize_eq_ok_iff.mp hmin) (readSize_eq_ok_iff.mp hmax) nonneg
          (Int32.lt_iff_toInt_lt.mp below)
      · cases h

theorem ofValues_of_atFault {min max field : String} (h : AtFault min max field) :
    ∃ fault, ofValues min max = .error (field, fault) := by
  cases h with
  | minUnread unread =>
    obtain ⟨fault, failed⟩ := readSize_error_iff.mpr unread
    exact ⟨fault, by rw [ofValues, failed]⟩
  | maxUnread hmin unread =>
    obtain ⟨fault, failed⟩ := readSize_error_iff.mpr unread
    exact ⟨fault, by rw [ofValues, readSize_eq_ok_iff.mpr hmin, failed]⟩
  | @negative lower upper hmin hmax below =>
    rw [ofValues, readSize_eq_ok_iff.mpr hmin, readSize_eq_ok_iff.mpr hmax]
    exact ⟨.negative lower, if_pos (Int32.lt_iff_toInt_lt.mpr below)⟩
  | @inverted lower upper hmin hmax nonneg below =>
    have notBelow : ¬ lower < 0 := Int32.not_lt.mpr (Int32.le_iff_toInt_le.mpr nonneg)
    rw [ofValues, readSize_eq_ok_iff.mpr hmin, readSize_eq_ok_iff.mpr hmax]
    simp only [if_neg notBelow, if_pos (Int32.lt_iff_toInt_lt.mpr below)]
    exact ⟨_, rfl⟩

section
variable {resource : String} {annotations : StringMap}

/-- The fault of two values is told of the object that carries them. -/
theorem ofAnnotations_of_fault {min max : String} {failed : String × BoundsFault}
    (hmin : annotations.lookup minSizeEntry = some min)
    (hmax : annotations.lookup maxSizeEntry = some max) (h : ofValues min max = .error failed) :
    ofAnnotations resource annotations =
      .error (.validation resource (some failed.1) failed.2.message) := by
  rw [ofAnnotations, hmin, hmax]
  dsimp only
  rw [h]

theorem ofAnnotations_error_iff {field : String} :
    (∃ message, ofAnnotations resource annotations =
      .error (.validation resource (some field) message)) ↔
    ∃ min max, annotations.lookup minSizeEntry = some min ∧
      annotations.lookup maxSizeEntry = some max ∧ AtFault min max field := by
  constructor
  · rintro ⟨message, h⟩
    obtain ⟨⟨min, max, hmin, hmax, undeclared⟩, -⟩ := ofAnnotations_eq_error h
    cases hv : ofValues min max with
    | ok b => exact absurd (ofValues_eq_ok_iff.mp hv) (undeclared b)
    | error failed =>
      cases (ofAnnotations_of_fault hmin hmax hv).symm.trans h
      exact ⟨min, max, hmin, hmax, atFault_of_ofValues hv⟩
  · rintro ⟨min, max, hmin, hmax, fault⟩
    obtain ⟨failed, hv⟩ := ofValues_of_atFault fault
    exact ⟨failed.message, ofAnnotations_of_fault hmin hmax hv⟩

end

/-- Annotations declare nothing, the bounds that their values spell, or a fault of the annotation
that is to blame; and bounds that are written in base ten are declared. -/
theorem ofAnnotations_exact (resource : String) (annotations : StringMap) :
    (ofAnnotations resource annotations = .ok none ↔
      annotations.lookup minSizeEntry = none ∨ annotations.lookup maxSizeEntry = none) ∧
    (∀ b, ofAnnotations resource annotations = .ok (some b) ↔
      ∃ min max, annotations.lookup minSizeEntry = some min ∧
        annotations.lookup maxSizeEntry = some max ∧ Declared min max b) ∧
    (∀ e, ofAnnotations resource annotations = .error e →
      ∃ field message, e = .validation resource (some field) message) ∧
    (∀ field, (∃ message, ofAnnotations resource annotations =
        .error (.validation resource (some field) message)) ↔
      ∃ min max, annotations.lookup minSizeEntry = some min ∧
        annotations.lookup maxSizeEntry = some max ∧ AtFault min max field) ∧
    ∀ b : Bounds, 0 ≤ b.min.toInt → b.min.toInt ≤ b.max.toInt →
      annotations.lookup minSizeEntry = some (Text.decimal32 b.min) →
      annotations.lookup maxSizeEntry = some (Text.decimal32 b.max) →
      ofAnnotations resource annotations = .ok (some b) := by
  refine ⟨ofAnnotations_eq_none_iff, fun b => ofAnnotations_eq_some_iff,
    fun e failed => (ofAnnotations_eq_error failed).2, fun field => ofAnnotations_error_iff, ?_⟩
  intro b nonneg ordered hmin hmax
  have declared : Declared (Text.decimal32 b.min) (Text.decimal32 b.max) b :=
    ⟨Text.spells_decimal32 b.min, Text.spells_decimal32 b.max, nonneg, ordered⟩
  exact ofAnnotations_eq_some_iff.mpr ⟨_, _, hmin, hmax, declared⟩

/-- The annotations that declare bounds as they are written. -/
def written (b : Bounds) : StringMap :=
  [(minSizeEntry, Text.decimal32 b.min), (maxSizeEntry, Text.decimal32 b.max)]

def widest : Bounds := ⟨0, 2147483647⟩

/-- Sizes below zero and none at all. -/
def confused : StringMap := [(minSizeEntry, "-1"), (maxSizeEntry, "ten")]

/-- The widest bounds are read as written. A value that cannot be read is told before one that
is too small. -/
theorem widest_read : 0 ≤ widest.min.toInt ∧ widest.min.toInt ≤ widest.max.toInt ∧
    widest.written.lookup minSizeEntry = some (Text.decimal32 widest.min) ∧
    widest.written.lookup maxSizeEntry = some (Text.decimal32 widest.max) ∧
    ofAnnotations "MachineSet/lab/solo" widest.written = .ok (some widest) ∧
    ∃ e, ofAnnotations "MachineSet/lab/solo" confused = .error e ∧
      ∃ message, e = .validation "MachineSet/lab/solo" (some maxSizeEntry) message := by
  obtain ⟨-, -, -, -, back⟩ := ofAnnotations_exact "MachineSet/lab/solo" widest.written
  obtain ⟨-, -, every, blamed, -⟩ := ofAnnotations_exact "MachineSet/lab/solo" confused
  have unread : ∀ n : Int32, ¬ Text.Spells "ten".toList n.toInt :=
    readSize_error_iff.mp ⟨_, rfl⟩
  have below : Text.Spells "-1".toList (-1 : Int32).toInt := readSize_eq_ok_iff.mp rfl
  obtain ⟨message, failed⟩ := (blamed maxSizeEntry).mpr
    ⟨"-1", "ten", rfl, rfl, .maxUnread below unread⟩
  obtain ⟨field, text, told⟩ := every _ failed
  cases told
  exact ⟨by decide, by decide, rfl, rfl, back widest (by decide) (by decide) rfl rfl, _, failed,
    message, rfl⟩

@[simp]
theorem hasRoom_iff {b : Bounds} : b.hasRoom = true ↔ b.min.toInt < b.max.toInt := by
  rw [hasRoom, decide_eq_true_iff, Int32.lt_iff_toInt_lt]

end Bounds

namespace Root

/-- The root carries both sizes and they declare these bounds. -/
def Declares (r : Root) (b : Bounds) : Prop :=
  ∃ min max, r.metadata.annotation? minSizeEntry = some min ∧
    r.metadata.annotation? maxSizeEntry = some max ∧ Bounds.Declared min max b

/-- The root carries both sizes and they declare nothing. -/
def Misconfigured (r : Root) : Prop :=
  ∃ min max, r.metadata.annotation? minSizeEntry = some min ∧
    r.metadata.annotation? maxSizeEntry = some max ∧ ∀ b, ¬ Bounds.Declared min max b

/-- The bounds that the root declares have room and it wants a replica. -/
structure Qualifies (r : Root) (b : Bounds) : Prop where
  declares : r.Declares b
  room : b.min.toInt < b.max.toInt
  wanted : 0 < r.replicas.toInt

theorem id_eq_ok_iff {r : Root} {id : GroupId} : r.id = .ok id ↔
    r.kind = id.kind ∧ r.metadata.key = .ok ⟨id.ns, id.name⟩ := by
  rw [Root.id, GroupId.ofMetadata]
  cases r.metadata.key with
  | error e => simp [Except.map]
  | ok k =>
    simp only [Except.map, Except.ok.injEq]
    constructor
    · rintro rfl
      exact ⟨rfl, rfl⟩
    · rintro ⟨hk, rfl⟩
      rw [hk]

theorem bounds_of_id {r : Root} {id : GroupId} (h : r.id = .ok id) :
    r.bounds = Bounds.ofAnnotations id.text (r.metadata.annotations.getD []) := by
  rw [Root.bounds, h]

theorem wanted_iff {r : Root} : 0 < r.replicas ↔ 0 < r.replicas.toInt :=
  Int32.lt_iff_toInt_lt

theorem ofRoot_of_id {r : Root} {id : GroupId} (h : r.id = .ok id) (b : Bounds) :
    NodeGroup.ofRoot r b = .ok ⟨id, r, b⟩ := by
  rw [NodeGroup.ofRoot, h, Except.map]

theorem group?_eq_some_iff {r : Root} {g : NodeGroup} : r.group? = .ok (some g) ↔
    ∃ id b, r.id = .ok id ∧ r.Qualifies b ∧ g = ⟨id, r, b⟩ := by
  cases hid : r.id with
  | error e => simp [Root.group?, Root.bounds, hid]
  | ok id =>
    have hb := bounds_of_id hid
    simp only [Except.ok.injEq, exists_and_left, exists_eq_left']
    constructor
    · intro h
      rw [Root.group?] at h
      split at h
      · cases h
      · cases h
      · next b declared =>
        split at h
        · next qualified =>
          rw [ofRoot_of_id hid, Except.map] at h
          cases h
          have declares := Bounds.ofAnnotations_eq_some_iff.mp (hb ▸ declared)
          exact ⟨b, ⟨declares, Bounds.hasRoom_iff.mp qualified.1, wanted_iff.mp qualified.2⟩, rfl⟩
        · cases h
    · rintro ⟨b, qualifies, rfl⟩
      have declared := hb.trans (Bounds.ofAnnotations_eq_some_iff.mpr qualifies.declares)
      have qualified : b.hasRoom = true ∧ 0 < r.replicas :=
        ⟨Bounds.hasRoom_iff.mpr qualifies.room, wanted_iff.mpr qualifies.wanted⟩
      rw [Root.group?, declared]
      simp only [if_pos qualified, ofRoot_of_id hid, Except.map]

/-- A group has the root that it was made of, and the identifier of that root. -/
theorem id_of_group? {r : Root} {g : NodeGroup} (h : r.group? = .ok (some g)) :
    g.root = r ∧ r.id = .ok g.id := by
  obtain ⟨id, b, hid, -, rfl⟩ := group?_eq_some_iff.mp h
  exact ⟨rfl, hid⟩

/-- What it takes to be the group of one's own root. -/
theorem group?_own_iff {g : NodeGroup} :
    g.root.group? = .ok (some g) ↔ g.root.Qualifies g.bounds ∧ g.root.id = .ok g.id := by
  rw [group?_eq_some_iff]
  constructor
  · rintro ⟨id, b, hid, qualifies, same⟩
    obtain ⟨gid, root, bounds⟩ := g
    cases same
    exact ⟨qualifies, hid⟩
  · rintro ⟨qualifies, hid⟩
    exact ⟨g.id, g.bounds, hid, qualifies, rfl⟩

/-- Only a misconfigured root fails, and it is the object of its own error. -/
theorem group?_eq_error {r : Root} {id : GroupId} {e : Error} (hid : r.id = .ok id)
    (h : r.group? = .error e) :
    r.Misconfigured ∧ ∃ field message, e = .validation id.text (some field) message := by
  rw [Root.group?] at h
  split at h
  · next failed =>
    cases h
    exact Bounds.ofAnnotations_eq_error ((bounds_of_id hid).symm.trans failed)
  · cases h
  · split at h
    · rw [ofRoot_of_id hid, Except.map] at h
      cases h
    · cases h

theorem group?_of_misconfigured {r : Root} (h : r.Misconfigured) : ∃ e, r.group? = .error e := by
  obtain ⟨min, max, hmin, hmax, undeclared⟩ := h
  cases hid : r.id with
  | error e => exact ⟨e, by simp [Root.group?, Root.bounds, hid]⟩
  | ok id =>
    cases hb : r.bounds with
    | error e => exact ⟨e, by simp [Root.group?, hb]⟩
    | ok found =>
      rw [bounds_of_id hid] at hb
      cases found with
      | none =>
        rcases Bounds.ofAnnotations_eq_none_iff.mp hb with absent | absent
        · cases hmin.symm.trans absent
        · cases hmax.symm.trans absent
      | some b =>
        obtain ⟨lower, upper, hl, hu, declared⟩ := Bounds.ofAnnotations_eq_some_iff.mp hb
        cases hmin.symm.trans hl
        cases hmax.symm.trans hu
        exact False.elim (undeclared b declared)

end Root
end NodeGroups
