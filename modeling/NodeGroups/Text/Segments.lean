/-!
# Segments of a slash-separated text

Keys and identifiers are texts whose parts are set apart by slashes. `segments` cuts at
every slash, so a text with `n` slashes has `n + 1` segments, some of them possibly empty;
`joined` puts them back together. Nothing here says which numbers of segments are allowed.
-/
namespace NodeGroups.Text

/-- The pieces between the slashes, in order. -/
def segments : List Char → List (List Char)
  | [] => [[]]
  | c :: rest =>
    if c = '/' then [] :: segments rest
    else match segments rest with
      | [] => [[c]]
      | piece :: pieces => (c :: piece) :: pieces

/-- The pieces with a slash between each two of them. -/
def joined : List (List Char) → List Char
  | [] => []
  | [piece] => piece
  | piece :: pieces => piece ++ '/' :: joined pieces

theorem segments_ne_nil (cs : List Char) : segments cs ≠ [] := by
  cases cs with
  | nil => simp [segments]
  | cons c rest =>
    rw [segments]
    split
    · simp
    · split <;> simp

theorem joined_segments (cs : List Char) : joined (segments cs) = cs := by
  induction cs with
  | nil => rfl
  | cons c rest ih =>
    rw [segments]
    split
    · next hc =>
      cases h : segments rest with
      | nil => exact absurd h (segments_ne_nil rest)
      | cons piece pieces =>
        rw [h] at ih
        simp [joined, ih, hc]
    · cases h : segments rest with
      | nil => exact absurd h (segments_ne_nil rest)
      | cons piece pieces =>
        rw [h] at ih
        cases pieces with
        | nil => simpa [joined] using ih
        | cons next others => simpa [joined] using ih

theorem segments_of_not_mem {cs : List Char} (h : '/' ∉ cs) : segments cs = [cs] := by
  induction cs with
  | nil => rfl
  | cons c rest ih =>
    have hc : c ≠ '/' := fun e => h (by simp [e])
    have hr : '/' ∉ rest := fun m => h (by simp [m])
    simp [segments, hc, ih hr]

/-- A slash between two texts parts their segments. -/
theorem segments_append (cs rest : List Char) :
    segments (cs ++ '/' :: rest) = segments cs ++ segments rest := by
  induction cs with
  | nil => simp [segments]
  | cons c cs ih =>
    by_cases hc : c = '/'
    · simp [segments, hc, ih]
    · cases hs : segments cs with
      | nil => exact absurd hs (segments_ne_nil cs)
      | cons piece pieces => simp [segments, hc, ih, hs]

theorem segments_append_slash {cs : List Char} (h : '/' ∉ cs) (rest : List Char) :
    segments (cs ++ '/' :: rest) = cs :: segments rest := by
  rw [segments_append, segments_of_not_mem h, List.singleton_append]

theorem not_mem_of_mem_segments {cs piece : List Char} (h : piece ∈ segments cs) :
    '/' ∉ piece := by
  induction cs generalizing piece with
  | nil => simp_all [segments]
  | cons c rest ih =>
    rw [segments] at h
    split at h
    · rcases List.mem_cons.mp h with rfl | h
      · simp
      · exact ih h
    · next hc =>
      cases hs : segments rest with
      | nil => exact absurd hs (segments_ne_nil rest)
      | cons first others =>
        rw [hs] at h ih
        rcases List.mem_cons.mp h with rfl | h
        · have := ih (List.mem_cons_self)
          simp only [List.mem_cons, not_or]
          exact ⟨fun e => hc e.symm, this⟩
        · exact ih (List.mem_cons_of_mem _ h)

end NodeGroups.Text
