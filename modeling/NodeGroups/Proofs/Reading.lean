import NodeGroups.Json.Parser
import NodeGroups.Proofs.Scanning

/-!
# Reading what was written

The tokens of a value are read as that value, whatever tokens come after them, when the budget
is twice their number or more: each turn of a reader uses up a token, or hands on to a reader that
does. So an indented document is read back as it was.
-/
namespace NodeGroups.Json

/-! ## One turn of each reader -/

theorem readValue_array {ts rest : List Token} {items : List Json} {budget : Nat}
    (opened : ts.head? ≠ some .arrayClose) (h : readItems budget ts = some (items, rest)) :
    readValue (budget + 1) (.arrayOpen :: ts) = some (.array items, rest) := by
  have turn : readValue (budget + 1) (.arrayOpen :: ts) =
      (readItems budget ts).bind fun out => some (.array out.1, out.2) := by
    cases ts with
    | nil => rfl
    | cons t ts =>
      cases t with
      | arrayClose => exact absurd rfl opened
      | _ => rfl
  rw [turn, h]
  rfl

theorem readValue_object {ts rest : List Token} {members : List (String × Json)} {budget : Nat}
    (opened : ts.head? ≠ some .objectClose) (h : readMembers budget ts = some (members, rest)) :
    readValue (budget + 1) (.objectOpen :: ts) = some (.object members, rest) := by
  have turn : readValue (budget + 1) (.objectOpen :: ts) =
      (readMembers budget ts).bind fun out => some (.object out.1, out.2) := by
    cases ts with
    | nil => rfl
    | cons t ts =>
      cases t with
      | objectClose => exact absurd rfl opened
      | _ => rfl
  rw [turn, h]
  rfl

section
variable {ts more rest : List Token} {budget : Nat} {j : Json}

theorem readItems_last (h : readValue budget ts = some (j, .arrayClose :: rest)) :
    readItems (budget + 1) ts = some ([j], rest) := by
  rw [readItems, h]
  rfl

theorem readItems_more {items : List Json} (h : readValue budget ts = some (j, .comma :: more))
    (k : readItems budget more = some (items, rest)) :
    readItems (budget + 1) ts = some (j :: items, rest) := by
  rw [readItems, h]
  change (readItems budget more).bind _ = _
  rw [k]
  rfl

theorem readMembers_last {name : String}
    (h : readValue budget ts = some (j, .objectClose :: rest)) :
    readMembers (budget + 1) (.text name :: .colon :: ts) = some ([(name, j)], rest) := by
  rw [readMembers, h]
  rfl

theorem readMembers_more (name : String) {members : List (String × Json)}
    (h : readValue budget ts = some (j, .comma :: more))
    (k : readMembers budget more = some (members, rest)) :
    readMembers (budget + 1) (.text name :: .colon :: ts) = some ((name, j) :: members, rest) := by
  rw [readMembers, h]
  change (readMembers budget more).bind _ = _
  rw [k]
  rfl

end

/-! ## Values -/

theorem tokens_eq_cons (j : Json) : ∃ t ts, j.tokens = t :: ts ∧ t ≠ .arrayClose := by
  cases j with
  | array items => exact ⟨_, _, rfl, by simp⟩
  | object members => exact ⟨_, _, rfl, by simp⟩
  | _ => exact ⟨_, _, rfl, by simp⟩

theorem head_itemTokens (item : Json) (rest : List Json) (ts : List Token) :
    (itemTokens (item :: rest) ++ ts).head? ≠ some .arrayClose := by
  obtain ⟨t, us, opens, ne⟩ := tokens_eq_cons item
  cases rest with
  | nil => simpa [itemTokens, opens] using ne
  | cons next rest => simpa [itemTokens, opens] using ne

theorem head_memberTokens (member : String × Json) (rest : List (String × Json))
    (ts : List Token) : (memberTokens (member :: rest) ++ ts).head? ≠ some .objectClose := by
  cases rest with
  | nil => simp [memberTokens]
  | cons next rest => simp [memberTokens]

mutual

theorem readValue_tokens : ∀ (j : Json) (budget : Nat) (rest : List Token),
    2 * j.tokens.length ≤ budget → readValue budget (j.tokens ++ rest) = some (j, rest)
  | .null, budget + 1, rest, _ => rfl
  | .bool _, budget + 1, rest, _ => rfl
  | .int _, budget + 1, rest, _ => rfl
  | .binary _, budget + 1, rest, _ => rfl
  | .text _, budget + 1, rest, _ => rfl
  | .array [], budget + 1, rest, _ => rfl
  | .object [], budget + 1, rest, _ => rfl
  | .array (item :: items), budget + 1, rest, enough => by
    have length : (tokens (.array (item :: items))).length =
        (itemTokens (item :: items)).length + 2 := by simp [tokens]
    have inner := readItems_tokens (item :: items) budget rest (by simp) (by omega)
    have outer := readValue_array (head_itemTokens item items _) inner
    simpa [tokens] using outer
  | .object (member :: members), budget + 1, rest, enough => by
    have length : (tokens (.object (member :: members))).length =
        (memberTokens (member :: members)).length + 2 := by simp [tokens]
    have inner := readMembers_tokens (member :: members) budget rest (by simp) (by omega)
    have outer := readValue_object (head_memberTokens member members _) inner
    simpa [tokens] using outer
  | j, 0, rest, enough => by
    obtain ⟨t, ts, opens, -⟩ := tokens_eq_cons j
    rw [opens] at enough
    cases enough

theorem readItems_tokens : ∀ (items : List Json) (budget : Nat) (rest : List Token), items ≠ [] →
    2 * (itemTokens items).length + 1 ≤ budget →
      readItems budget (itemTokens items ++ .arrayClose :: rest) = some (items, rest)
  | [], _, _, ne, _ => absurd rfl ne
  | [item], budget + 1, rest, _, enough => by
    have length : (itemTokens [item]).length = item.tokens.length := rfl
    exact readItems_last (readValue_tokens item budget (.arrayClose :: rest) (by omega))
  | item :: next :: items, budget + 1, rest, _, enough => by
    have length : (itemTokens (item :: next :: items)).length =
        item.tokens.length + 1 + (itemTokens (next :: items)).length := by
      simp [itemTokens]
      omega
    have first := readValue_tokens item budget
      (.comma :: (itemTokens (next :: items) ++ .arrayClose :: rest)) (by omega)
    have others := readItems_tokens (next :: items) budget rest (by simp) (by omega)
    have whole := readItems_more first others
    simpa [itemTokens] using whole

theorem readMembers_tokens : ∀ (members : List (String × Json)) (budget : Nat)
    (rest : List Token), members ≠ [] → 2 * (memberTokens members).length + 1 ≤ budget →
      readMembers budget (memberTokens members ++ .objectClose :: rest) = some (members, rest)
  | [], _, _, ne, _ => absurd rfl ne
  | [(name, value)], budget + 1, rest, _, enough => by
    have length : (memberTokens [(name, value)]).length = value.tokens.length + 2 := by
      simp [memberTokens]
    exact readMembers_last (readValue_tokens value budget (.objectClose :: rest) (by omega))
  | (name, value) :: next :: members, budget + 1, rest, _, enough => by
    have length : (memberTokens ((name, value) :: next :: members)).length =
        value.tokens.length + 3 + (memberTokens (next :: members)).length := by
      simp [memberTokens]
      omega
    have first := readValue_tokens value budget
      (.comma :: (memberTokens (next :: members) ++ .objectClose :: rest)) (by omega)
    have others := readMembers_tokens (next :: members) budget rest (by simp) (by omega)
    have whole := readMembers_more name first others
    simpa [memberTokens] using whole

end

theorem ofTokens?_tokens (j : Json) : ofTokens? j.tokens = some j := by
  have read := readValue_tokens j (2 * j.tokens.length + 1) [] (by omega)
  rw [List.append_nil] at read
  rw [ofTokens?, read]

/-- A document that was written with indents, and a line feed after it, is read back. -/
theorem parse?_indented {j : Json} (plain : j.IsPlain) :
    parse? (j.indented ++ "\n") = some j := by
  have chars : (j.indented ++ "\n").toList = layout 0 j ++ ['\n'] := by
    rw [String.toList_append, indented, String.toList_ofList]
    rfl
  rw [parse?, chars, scan_indented plain rfl]
  exact ofTokens?_tokens j

end NodeGroups.Json
