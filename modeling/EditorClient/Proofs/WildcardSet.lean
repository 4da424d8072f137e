import EditorClient.Wildcard
import Mathlib.Data.Char

/-! What a set of characters in a wildcard holds, read from its text from left to right. -/

namespace EditorClient

/-- One character of a set, or all from one to another. -/
inductive SetItem where
  | one (c : Char)
  | range (low high : Char)

namespace SetItem

def Holds : SetItem → Char → Prop
  | one d, c => c = d
  | range low high, c => low ≤ c ∧ c ≤ high

def tokens : SetItem → List Piece.SetToken
  | one c => [.char c]
  | range low high => if high < low then [] else [.char low, .dash, .char high]

end SetItem

/-- A dash between two characters makes a range of them; any other dash stands for itself. -/
def setItems : List Char → List SetItem
  | low :: '-' :: high :: cs => .range low high :: setItems cs
  | c :: cs => .one c :: setItems cs
  | [] => []

/-- What the items hold if no mark of negation stands before them. Ranges that hold nothing are passed
over at the start, so that a mark may follow after all; a dash after it then stands for itself. -/
def ItemsHold : List SetItem → Char → Prop
  | .one '!' :: items, c => ¬∃ item ∈ items, item.Holds c
  | .range low high :: items, c =>
    if high < low then ItemsHold items c
    else if low = '!' then ¬∃ item ∈ .one '-' :: .one high :: items, item.Holds c
    else ∃ item ∈ .range low high :: items, item.Holds c
  | items, c => ∃ item ∈ items, item.Holds c

/-- Whether a set with this text between its brackets holds a character. -/
def SetHolds : List Char → Char → Prop
  | '!' :: cs, c => ¬∃ item ∈ setItems cs, item.Holds c
  | cs, c => ItemsHold (setItems cs) c

/-- A closing bracket may only be the first character that a set names. -/
def IsSetBody (body : List Char) : Prop :=
  ∃ first others, ']' ∉ others ∧
    (body = '!' :: first :: others ∨ first ≠ '!' ∧ body = first :: others)

namespace Piece

theorem setItems_cons {c : Char} {cs : List Char} (h : cs.head? ≠ some '-') :
    setItems (c :: cs) = .one c :: setItems cs := by
  cases cs with
  | nil => rfl
  | cons d cs =>
    have hd : d ≠ '-' := by simpa using h
    rw [setItems.eq_2]
    intro high ds hds
    simp_all

theorem chunks_cons {least : Nat} {current : List Char} {c : Char} {cs : List Char}
    (h : c ≠ '-' ∨ least ≠ 0) :
    chunks least current (c :: cs) = chunks (least - 1) (current ++ [c]) cs := by
  rw [chunks, if_neg]
  rintro ⟨rfl, rfl⟩
  simp at h

theorem chunks_extend (least : Nat) (current cs : List Char) :
    ∃ chunk rest, chunks least current cs = (current ++ chunk) :: rest := by
  induction cs generalizing least current with
  | nil => exact ⟨[], [], by simp [chunks]⟩
  | cons c cs ih =>
    by_cases h : c = '-' ∧ least = 0
    · exact ⟨[], chunks 2 [] cs, by simp [chunks, h]⟩
    · obtain ⟨chunk, rest, hh⟩ := ih (least - 1) (current ++ [c])
      exact ⟨c :: chunk, rest, by simp [chunks, h, hh]⟩

/-- The tokens of chunks that are to be joined by dashes. -/
def joined (chunks : List (List Char)) : List SetToken :=
  List.intercalate [.dash] (chunks.map fun chunk => chunk.map .char)

theorem joined_append (cs chunk : List Char) (rest : List (List Char)) :
    joined ((cs ++ chunk) :: rest) = cs.map .char ++ joined (chunk :: rest) := by
  cases rest with
  | nil => simp [joined]
  | cons d ds => simp [joined, List.intercalate]

theorem joined_cons (chunk d : List Char) (rest : List (List Char)) :
    joined (chunk :: d :: rest) = chunk.map .char ++ .dash :: joined (d :: rest) := by
  simp [joined, List.intercalate]

/-- The tokens that a text comes to if its characters are read one item after another. -/
def itemTokens (cs : List Char) : List SetToken := (setItems cs).flatMap SetItem.tokens

theorem itemTokens_cons {c : Char} {cs : List Char} (h : cs.head? ≠ some '-') :
    itemTokens (c :: cs) = .char c :: itemTokens cs := by
  rw [itemTokens, setItems_cons h]
  rfl

theorem itemTokens_range (low high : Char) (cs : List Char) :
    itemTokens (low :: '-' :: high :: cs) =
      (SetItem.range low high).tokens ++ itemTokens cs := rfl

/-- A range that holds nothing goes with both of its ends. -/
theorem dropEmptyRanges_range {settled chunk : List Char} {low high : Char}
    {chunks rest : List (List Char)} (h : dropEmptyRanges chunks = (high :: chunk) :: rest) :
    ∃ chunk' rest', dropEmptyRanges ((settled ++ [low]) :: chunks) = (settled ++ chunk') :: rest' ∧
      joined (chunk' :: rest') = (SetItem.range low high).tokens ++ joined (chunk :: rest) := by
  by_cases hempty : high < low
  · exact ⟨chunk, rest, by simp [dropEmptyRanges, h, hempty], by simp [SetItem.tokens, hempty]⟩
  · refine ⟨[low], (high :: chunk) :: rest, by simp [dropEmptyRanges, h, hempty], ?_⟩
    have hhigh := joined_append [high] chunk rest
    simp only [List.singleton_append] at hhigh
    simp [joined_cons, hhigh, SetItem.tokens, hempty]

theorem closeChunks_range (current : List Char) (high : Char) (cs : List Char) :
    closeChunks (chunks 0 current ('-' :: high :: cs)) =
      current :: closeChunks (chunks 1 [high] cs) := by
  obtain ⟨chunk, rest, hchunks⟩ := chunks_extend 1 [high] cs
  have hdash : chunks 0 current ('-' :: high :: cs) = current :: chunks 1 [high] cs := by
    simp [chunks]
  rw [hdash, hchunks]
  rfl

/- The chunks come to the same tokens as the items. What is settled stands before the first character
that may still be the lower end of a range. -/
mutual

theorem joined_chunks_one (settled cs : List Char) :
    ∃ chunk rest, dropEmptyRanges (closeChunks (chunks 1 settled cs)) =
      (settled ++ chunk) :: rest ∧ joined (chunk :: rest) = itemTokens cs := by
  match cs with
  | [] => exact ⟨[], [], by simp [chunks, closeChunks, dropEmptyRanges], rfl⟩
  | c :: cs =>
    rw [chunks_cons (.inr (by simp))]
    exact joined_chunks_zero settled c cs
termination_by cs.length

theorem joined_chunks_zero (settled : List Char) (c : Char) (cs : List Char) :
    ∃ chunk rest, dropEmptyRanges (closeChunks (chunks 0 (settled ++ [c]) cs)) =
      (settled ++ chunk) :: rest ∧ joined (chunk :: rest) = itemTokens (c :: cs) := by
  match cs with
  | [] => exact ⟨[c], [], rfl, rfl⟩
  | d :: cs =>
    by_cases hd : d = '-'
    · subst hd
      match cs with
      | [] => exact ⟨[c, '-'], [], by simp [chunks, closeChunks, dropEmptyRanges], rfl⟩
      | high :: cs =>
        obtain ⟨chunk, rest, hdrop, hjoined⟩ := joined_chunks_one [high] cs
        rw [closeChunks_range, itemTokens_range, ← hjoined]
        exact dropEmptyRanges_range hdrop
    · obtain ⟨chunk, rest, hdrop, hjoined⟩ := joined_chunks_zero (settled ++ [c]) d cs
      rw [chunks_cons (.inl hd)]
      refine ⟨c :: chunk, rest, by simpa using hdrop, ?_⟩
      rw [itemTokens_cons (by simpa using hd), ← hjoined]
      exact joined_append [c] chunk rest
termination_by cs.length

end

theorem itemTokens_of_not_mem {cs : List Char} (h : '-' ∉ cs) : itemTokens cs = cs.map .char := by
  induction cs with
  | nil => rfl
  | cons c cs ih =>
    have hcs : '-' ∉ cs := fun hh => h (List.mem_cons_of_mem _ hh)
    have hhead : cs.head? ≠ some '-' := fun hh => hcs (List.mem_of_head? hh)
    rw [itemTokens_cons hhead, ih hcs, List.map_cons]

theorem tokens_of_head {body : List Char} (h : body.head? ≠ some '!') :
    tokens body = itemTokens body := by
  unfold tokens
  by_cases hdash : body.contains '-' = true
  · obtain ⟨chunk, rest, hdrop, hjoined⟩ := joined_chunks_one [] body
    rw [if_pos hdash, if_neg h]
    dsimp only
    rw [hdrop]
    exact hjoined
  · rw [if_neg hdash, itemTokens_of_not_mem (by simpa using hdash)]

theorem tokens_negated (cs : List Char) : tokens ('!' :: cs) = .char '!' :: itemTokens cs := by
  unfold tokens
  by_cases hdash : ('!' :: cs).contains '-' = true
  · obtain ⟨chunk, rest, hdrop, hjoined⟩ := joined_chunks_one ['!'] cs
    have hchunks : chunks 2 [] ('!' :: cs) = chunks 1 ['!'] cs := chunks_cons (.inr (by simp))
    have hhead : ('!' :: cs).head? = some '!' := rfl
    rw [if_pos hdash, if_pos hhead]
    dsimp only
    rw [hchunks, hdrop, ← hjoined]
    exact joined_append ['!'] chunk rest
  · have hcs : '-' ∉ cs := by simpa using hdash
    rw [if_neg hdash, itemTokens_of_not_mem hcs, List.map_cons]

theorem head?_itemTokens (items : List SetItem) :
    (items.flatMap SetItem.tokens).head? ≠ some .dash := by
  induction items with
  | nil => simp
  | cons item items ih =>
    cases item with
    | one c => simp [SetItem.tokens]
    | range low high =>
      by_cases hempty : high < low
      · simpa [SetItem.tokens, hempty] using ih
      · simp [SetItem.tokens, hempty]

theorem ranges_char {c : Char} {ts : List SetToken} (h : ts.head? ≠ some .dash) :
    ranges (.char c :: ts) = (c, c) :: ranges ts := by
  cases ts with
  | nil => rfl
  | cons t ts =>
    cases t with
    | char d => rfl
    | dash => simp at h

/-- Ranges that hold nothing need no tokens. -/
theorem ranges_itemTokens (items : List SetItem) (c : Char) :
    (∃ r ∈ ranges (items.flatMap SetItem.tokens), r.1 ≤ c ∧ c ≤ r.2) ↔
      ∃ item ∈ items, item.Holds c := by
  induction items with
  | nil => simp [ranges]
  | cons item items ih =>
    cases item with
    | one d =>
      have hone : d ≤ c ∧ c ≤ d ↔ c = d := ⟨fun h => le_antisymm h.2 h.1, fun h => by simp [h]⟩
      rw [List.flatMap_cons, SetItem.tokens, List.singleton_append,
        ranges_char (head?_itemTokens items)]
      simp [ih, hone, SetItem.Holds]
    | range low high =>
      by_cases hempty : high < low
      · have hnone : ¬(low ≤ c ∧ c ≤ high) := fun h => absurd (le_trans h.1 h.2) (not_le.mpr hempty)
        simp [SetItem.tokens, hempty, ih, SetItem.Holds, hnone]
      · simp [SetItem.tokens, hempty, ih, SetItem.Holds, ranges]

theorem accepts_set (negated : Bool) (ts : List SetToken) (c : Char) :
    (set negated (ranges ts)).accepts c = true ↔
      ((∃ r ∈ ranges ts, r.1 ≤ c ∧ c ≤ r.2) ↔ negated = false) := by
  cases negated with
  | false => simp [accepts]
  | true => simp [accepts]

def ofTokens : List SetToken → Piece
  | .char '!' :: ts => set true (ranges ts)
  | ts => set false (ranges ts)

theorem ofTokens_of_head {ts : List SetToken} (h : ts.head? ≠ some (.char '!')) :
    ofTokens ts = set false (ranges ts) := by
  unfold ofTokens
  split
  · simp at h
  · rfl

theorem itemsHold_one {d : Char} (hd : d ≠ '!') (items : List SetItem) (c : Char) :
    ItemsHold (.one d :: items) c ↔ ∃ item ∈ .one d :: items, item.Holds c := by
  unfold ItemsHold
  split
  · simp_all
  · simp_all
  · rfl

theorem accepts_ofTokens (items : List SetItem) (c : Char) :
    (ofTokens (items.flatMap SetItem.tokens)).accepts c = true ↔ ItemsHold items c := by
  induction items with
  | nil => simp [ofTokens, accepts, ranges, ItemsHold]
  | cons item items ih =>
    have hdash := head?_itemTokens items
    cases item with
    | one d =>
      by_cases hd : d = '!'
      · subst hd
        have hh := ranges_itemTokens items c
        change (set true (ranges (items.flatMap SetItem.tokens))).accepts c = true ↔ _
        rw [accepts_set, hh]
        simp [ItemsHold]
      · have hh := ranges_itemTokens (.one d :: items) c
        have hhead : (List.flatMap SetItem.tokens (.one d :: items)).head? ≠ some (.char '!') := by
          simpa [SetItem.tokens] using hd
        rw [ofTokens_of_head hhead, accepts_set, hh, itemsHold_one hd]
        simp
    | range low high =>
      by_cases hempty : high < low
      · have hskip : List.flatMap SetItem.tokens (.range low high :: items) =
            items.flatMap SetItem.tokens := by simp [SetItem.tokens, hempty]
        rw [hskip, ih]
        simp [ItemsHold, hempty]
      · by_cases hlow : low = '!'
        · subst hlow
          have hh := ranges_itemTokens (.one '-' :: .one high :: items) c
          have hmark : List.flatMap SetItem.tokens (.range '!' high :: items) =
              .char '!' :: .dash :: .char high :: items.flatMap SetItem.tokens := by
            simp [SetItem.tokens, hempty]
          rw [hmark]
          -- the dash after the mark does not make a range any more
          change (set true (ranges (List.flatMap SetItem.tokens
            (.one '-' :: .one high :: items)))).accepts c = true ↔ _
          rw [accepts_set, hh]
          simp [ItemsHold, hempty]
        · have hh := ranges_itemTokens (.range low high :: items) c
          have hhead : (List.flatMap SetItem.tokens (.range low high :: items)).head? ≠
              some (.char '!') := by
            simpa [SetItem.tokens, hempty] using hlow
          rw [ofTokens_of_head hhead, accepts_set, hh]
          simp [ItemsHold, hempty, hlow]

/-- A set holds just the characters that its text names. -/
theorem accepts_ofSetBody (body : List Char) (c : Char) :
    (ofSetBody body).accepts c = true ↔ SetHolds body c := by
  change (ofTokens (tokens body)).accepts c = true ↔ _
  by_cases h : body.head? = some '!'
  · obtain ⟨cs, rfl⟩ := List.head?_eq_some_iff.mp h
    have hh := ranges_itemTokens (setItems cs) c
    rw [tokens_negated]
    change (set true (ranges (itemTokens cs))).accepts c = true ↔ _
    rw [accepts_set, itemTokens, hh]
    simp [SetHolds]
  · rw [tokens_of_head h, itemTokens, accepts_ofTokens]
    unfold SetHolds
    split
    · simp at h
    · rfl

/-- What stands before the first closing bracket that is not the first character. -/
def beforeClosing? (cs : List Char) : Option (List Char) :=
  let first := if cs.head? = some ']' then [']'] else []
  let rest := cs.drop first.length
  if rest.contains ']' then some (first ++ rest.takeWhile (· != ']')) else none

theorem setBody?_marked (cs : List Char) :
    setBody? ('!' :: cs) = (beforeClosing? cs).map ('!' :: ·) := by
  unfold setBody? beforeClosing?
  by_cases hhead : cs.head? = some ']'
  · simp [hhead]
  · simp [hhead]

theorem setBody?_unmarked {cs : List Char} (h : cs.head? ≠ some '!') :
    setBody? cs = beforeClosing? cs := by
  unfold setBody? beforeClosing?
  simp [h]

theorem beforeClosing?_eq_some {cs body : List Char} :
    beforeClosing? cs = some body ↔ ∃ first others, ']' ∉ others ∧ body = first :: others ∧
      ∃ rest, cs = first :: others ++ ']' :: rest := by
  have hbefore : ∀ others rest : List Char, ']' ∉ others →
      (others ++ ']' :: rest).takeWhile (· != ']') = others := by
    intro others rest h
    have hothers : ∀ d ∈ others, (d != ']') = true := fun d hd => by
      have hne : d ≠ ']' := fun hh => h (hh ▸ hd)
      simpa using hne
    rw [List.takeWhile_append_of_pos hothers]
    simp
  unfold beforeClosing?
  constructor
  · intro h
    by_cases hhead : cs.head? = some ']'
    · obtain ⟨cs, rfl⟩ := List.head?_eq_some_iff.mp hhead
      by_cases hmem : ']' ∈ cs
      · obtain ⟨others, rest, rfl, hothers⟩ := List.eq_append_cons_of_mem hmem
        have hbody : ']' :: others = body := by simpa [hbefore others rest hothers] using h
        exact ⟨']', others, hothers, hbody.symm, rest, rfl⟩
      · simp [hmem] at h
    · by_cases hmem : ']' ∈ cs
      · obtain ⟨others, rest, rfl, hothers⟩ := List.eq_append_cons_of_mem hmem
        have hwhile := hbefore others rest hothers
        cases others with
        | nil => simp at hhead
        | cons first others =>
          have hmem' : ']' ∉ others := fun hh => hothers (List.mem_cons_of_mem _ hh)
          have hbody : first :: others = body := by
            rw [List.cons_append] at hwhile
            simpa [hwhile, show first ≠ ']' by simpa using hhead] using h
          exact ⟨first, others, hmem', hbody.symm, rest, rfl⟩
      · simp [hhead, hmem] at h
  · rintro ⟨first, others, hothers, rfl, rest, rfl⟩
    by_cases hfirst : first = ']'
    · simp [hfirst, hbefore others rest hothers]
    · have hcons : ']' ∉ first :: others := by simpa [Ne.symm hfirst] using hothers
      have hbody := hbefore (first :: others) rest hcons
      rw [List.cons_append] at hbody
      simp [hfirst, hbody]

/-- A bracket is closed by the first closing bracket after the first character that the set names. -/
theorem setBody?_eq_some {cs body : List Char} :
    setBody? cs = some body ↔ IsSetBody body ∧ ∃ rest, cs = body ++ ']' :: rest := by
  by_cases h : cs.head? = some '!'
  · obtain ⟨cs, rfl⟩ := List.head?_eq_some_iff.mp h
    rw [setBody?_marked, Option.map_eq_some_iff]
    constructor
    · rintro ⟨_, hbefore, rfl⟩
      obtain ⟨first, others, hothers, rfl, rest, rfl⟩ := beforeClosing?_eq_some.mp hbefore
      exact ⟨⟨first, others, hothers, .inl rfl⟩, rest, rfl⟩
    · rintro ⟨⟨first, others, hothers, rfl | ⟨hfirst, rfl⟩⟩, rest, hcs⟩
      · have hcs' : cs = first :: others ++ ']' :: rest := by simpa using hcs
        exact ⟨_, beforeClosing?_eq_some.mpr ⟨first, others, hothers, rfl, rest, hcs'⟩, rfl⟩
      · simp only [List.cons_append, List.cons.injEq] at hcs
        exact absurd hcs.1.symm hfirst
  · rw [setBody?_unmarked h, beforeClosing?_eq_some]
    constructor
    · rintro ⟨first, others, hothers, rfl, rest, rfl⟩
      have hfirst : first ≠ '!' := by simpa using h
      exact ⟨⟨first, others, hothers, .inr ⟨hfirst, rfl⟩⟩, rest, rfl⟩
    · rintro ⟨⟨first, others, hothers, rfl | ⟨hfirst, rfl⟩⟩, rest, rfl⟩
      · simp at h
      · exact ⟨first, others, hothers, rfl, rest, rfl⟩

end Piece

end EditorClient
