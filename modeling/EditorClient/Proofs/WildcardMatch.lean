import EditorClient.Proofs.WildcardSet
import Mathlib.Data.List.Forall2
import Mathlib.Data.List.Infix

/-! Which names a wildcard matches, said of its text, and that the table by which wildcards are matched
agrees. -/

namespace EditorClient

/-- Whether a name is one that the text of a wildcard stands for. -/
inductive WildcardMatch : List Char → List Char → Prop
  | done : WildcardMatch [] []
  | starOver {pattern cs : List Char} (h : WildcardMatch pattern cs) : WildcardMatch ('*' :: pattern) cs
  | starMore {pattern cs : List Char} {c : Char} (h : WildcardMatch ('*' :: pattern) cs) :
      WildcardMatch ('*' :: pattern) (c :: cs)
  | any {pattern cs : List Char} {c : Char} (h : WildcardMatch pattern cs) :
      WildcardMatch ('?' :: pattern) (c :: cs)
  | set {body pattern cs : List Char} {c : Char} (hbody : IsSetBody body) (hc : SetHolds body c)
      (h : WildcardMatch pattern cs) : WildcardMatch ('[' :: (body ++ ']' :: pattern)) (c :: cs)
  | bracket {pattern cs : List Char}
      (hopen : ∀ body rest, pattern = body ++ ']' :: rest → ¬IsSetBody body)
      (h : WildcardMatch pattern cs) : WildcardMatch ('[' :: pattern) ('[' :: cs)
  | literal {pattern cs : List Char} {c : Char} (hc : c ∉ ['*', '?', '['])
      (h : WildcardMatch pattern cs) : WildcardMatch (c :: pattern) (c :: cs)

/-- What a piece matches if what follows it is to match the rest. -/
def Piece.Before : Piece → (List Char → Prop) → List Char → Prop
  | .star, P, cs => ∃ tail ∈ cs.tails, P tail
  | _, _, [] => False
  | p, P, c :: cs => p.accepts c = true ∧ P cs

/-- A table says for each tail of a text whether the property holds of it. -/
abbrev Tabulates (P : List Char → Prop) (cs : List Char) (table : List Bool) : Prop :=
  List.Forall₂ (fun tail b => b = true ↔ P tail) cs.tails table

section Table

variable {P : List Char → Prop} {cs : List Char} {table : List Bool} {c : Char}

theorem tabulates_nil : Tabulates P [] table ↔ ∃ b, table = [b] ∧ (b = true ↔ P []) := by
  simp only [Tabulates, List.tails, List.forall₂_cons_left_iff, List.forall₂_nil_left_iff]
  aesop

theorem tabulates_cons : Tabulates P (c :: cs) table ↔
    ∃ b rest, table = b :: rest ∧ (b = true ↔ P (c :: cs)) ∧ Tabulates P cs rest := by
  simp only [Tabulates, List.tails, List.forall₂_cons_left_iff]
  aesop

theorem Tabulates.head (h : Tabulates P cs table) : table.headD false = true ↔ P cs := by
  cases cs with
  | nil =>
    obtain ⟨b, rfl, hb⟩ := tabulates_nil.mp h
    exact hb
  | cons c cs =>
    obtain ⟨b, rest, rfl, hb, _⟩ := tabulates_cons.mp h
    exact hb

namespace Piece

theorem before_star_nil : star.Before P [] ↔ P [] := by simp [Before]

theorem before_star_cons : star.Before P (c :: cs) ↔ P (c :: cs) ∨ star.Before P cs := by
  simp [Before]

theorem tabulates_row (p : Piece) (h : Tabulates P cs table) :
    Tabulates (p.Before P) cs (p.row cs table) := by
  induction cs generalizing table with
  | nil =>
    obtain ⟨b, rfl, hb⟩ := tabulates_nil.mp h
    cases p with
    | star => exact tabulates_nil.mpr ⟨b, rfl, hb.trans before_star_nil.symm⟩
    | _ => exact tabulates_nil.mpr ⟨false, rfl, by simp [Before]⟩
  | cons c cs ih =>
    obtain ⟨b, rest, rfl, hb, hrest⟩ := tabulates_cons.mp h
    have htail := ih hrest
    cases p with
    | star =>
      refine tabulates_cons.mpr ⟨_, _, rfl, ?_, htail⟩
      rw [before_star_cons, Bool.or_eq_true, List.headD_cons, List.tail_cons, hb, htail.head]
    | _ =>
      refine tabulates_cons.mpr ⟨_, _, rfl, ?_, htail⟩
      rw [Bool.and_eq_true, List.tail_cons, hrest.head]
      rfl

end Piece

end Table

theorem tabulates_emptyRow (cs : List Char) : Tabulates (· = []) cs (emptyRow cs) := by
  induction cs with
  | nil => exact tabulates_nil.mpr ⟨true, rfl, by simp⟩
  | cons c cs ih => exact tabulates_cons.mpr ⟨false, emptyRow cs, rfl, by simp, ih⟩

theorem matchesPieces_iff (pieces : List Piece) (cs : List Char) :
    matchesPieces pieces cs = true ↔ pieces.foldr Piece.Before (· = []) cs := by
  have htable : Tabulates (pieces.foldr Piece.Before (· = [])) cs
      (pieces.foldr (fun p rest => p.row cs rest) (emptyRow cs)) := by
    induction pieces with
    | nil => exact tabulates_emptyRow cs
    | cons p pieces ih => exact p.tabulates_row ih
  exact htable.head

namespace Piece

theorem parseAfter_skip (skipped : Nat) (cs : List Char) :
    parseAfter skipped cs = parseAfter 0 (cs.drop skipped) := by
  induction skipped generalizing cs with
  | zero => rfl
  | succ skipped ih =>
    cases cs with
    | nil => simp [parseAfter]
    | cons c cs => simpa [parseAfter] using ih cs

theorem Before.congr {P Q : List Char → Prop} (h : ∀ cs, P cs ↔ Q cs) (p : Piece) (cs : List Char) :
    p.Before P cs ↔ p.Before Q cs := by
  have hpq : P = Q := funext fun cs => propext (h cs)
  rw [hpq]

theorem ofSetBody_eq_set (body : List Char) : ∃ negated ranges, ofSetBody body = set negated ranges := by
  unfold ofSetBody
  split
  · exact ⟨_, _, rfl⟩
  · exact ⟨_, _, rfl⟩

theorem before_ofSetBody_nil {body : List Char} {P : List Char → Prop} :
    ¬(ofSetBody body).Before P [] := by
  obtain ⟨negated, ranges, h⟩ := ofSetBody_eq_set body
  simp [h, Before]

theorem before_ofSetBody_cons {body : List Char} {P : List Char → Prop} {c : Char} {cs : List Char} :
    (ofSetBody body).Before P (c :: cs) ↔ SetHolds body c ∧ P cs := by
  rw [← accepts_ofSetBody]
  obtain ⟨negated, ranges, h⟩ := ofSetBody_eq_set body
  rw [h]
  rfl

end Piece

namespace WildcardMatch

variable {pattern cs : List Char}

theorem nil_iff : WildcardMatch [] cs ↔ cs = [] := by
  constructor
  · rintro ⟨⟩
    rfl
  · rintro rfl
    exact .done

theorem star_iff :
    WildcardMatch ('*' :: pattern) cs ↔ Piece.star.Before (WildcardMatch pattern) cs := by
  induction cs with
  | nil =>
    rw [Piece.before_star_nil]
    constructor
    · intro h
      cases h with
      | starOver h => exact h
    · exact .starOver
  | cons c cs ih =>
    rw [Piece.before_star_cons, ← ih]
    constructor
    · intro h
      cases h with
      | starOver h => exact .inl h
      | starMore h => exact .inr h
      | literal hc h => simp at hc
    · rintro (h | h)
      · exact .starOver h
      · exact .starMore h

theorem star_star_iff :
    WildcardMatch ('*' :: '*' :: pattern) cs ↔ WildcardMatch ('*' :: pattern) cs := by
  constructor
  · intro h
    rw [star_iff] at h ⊢
    obtain ⟨tail, htail, hmatch⟩ := h
    obtain ⟨tail', htail', hmatch'⟩ := star_iff.mp hmatch
    have hsuffix : tail' <:+ cs :=
      (List.mem_tails _ _ |>.mp htail').trans (List.mem_tails _ _ |>.mp htail)
    exact ⟨tail', (List.mem_tails _ _).mpr hsuffix, hmatch'⟩
  · exact .starOver

theorem any_iff :
    WildcardMatch ('?' :: pattern) cs ↔ Piece.any.Before (WildcardMatch pattern) cs := by
  constructor
  · intro h
    cases h with
    | any h => exact ⟨rfl, h⟩
    | literal hc h => simp at hc
  · intro h
    cases cs with
    | nil => exact h.elim
    | cons c cs => exact .any h.2

theorem literal_iff {c : Char} (hc : c ∉ ['*', '?', '[']) :
    WildcardMatch (c :: pattern) cs ↔ (Piece.literal c).Before (WildcardMatch pattern) cs := by
  constructor
  · intro h
    cases h with
    | literal _ h => exact ⟨by simp [Piece.accepts], h⟩
    | _ => simp at hc
  · intro h
    cases cs with
    | nil => exact h.elim
    | cons d cs =>
      have hd : d = c := by simpa [Piece.accepts] using h.1
      subst hd
      exact .literal hc h.2

theorem set_iff {body : List Char} (h : Piece.setBody? pattern = some body) :
    WildcardMatch ('[' :: pattern) cs ↔
      (Piece.ofSetBody body).Before (WildcardMatch (pattern.drop (body.length + 1))) cs := by
  obtain ⟨hbody, rest, rfl⟩ := Piece.setBody?_eq_some.mp h
  have hrest : (body ++ ']' :: rest).drop (body.length + 1) = rest := by simp
  rw [hrest]
  constructor
  · intro hmatch
    generalize hpattern : body ++ ']' :: rest = pattern at hmatch h
    cases hmatch with
    | @set body' rest' cs c hbody' hc hmatch =>
      -- the text between the brackets is determined
      have hsame : body' = body := by
        have hh := Piece.setBody?_eq_some.mpr ⟨hbody', rest', rfl⟩
        rw [h] at hh
        exact (Option.some.inj hh).symm
      subst hsame
      have hrest' : rest = rest' := by simpa using hpattern
      subst hrest'
      exact Piece.before_ofSetBody_cons.mpr ⟨hc, hmatch⟩
    | bracket hopen hmatch => exact absurd hbody (hopen body rest hpattern.symm)
    | literal hc hmatch => simp at hc
  · intro hmatch
    cases cs with
    | nil => exact (Piece.before_ofSetBody_nil hmatch).elim
    | cons c cs =>
      obtain ⟨hc, hmatch⟩ := Piece.before_ofSetBody_cons.mp hmatch
      exact .set hbody hc hmatch

theorem bracket_iff (h : Piece.setBody? pattern = none) :
    WildcardMatch ('[' :: pattern) cs ↔ (Piece.literal '[').Before (WildcardMatch pattern) cs := by
  have hopen : ∀ body rest, pattern = body ++ ']' :: rest → ¬IsSetBody body := by
    intro body rest hpattern hbody
    have hh := Piece.setBody?_eq_some.mpr ⟨hbody, rest, hpattern⟩
    simp [h] at hh
  constructor
  · intro hmatch
    cases hmatch with
    | set hbody => exact absurd hbody (hopen _ _ rfl)
    | bracket _ hmatch => exact ⟨rfl, hmatch⟩
    | literal hc => simp at hc
  · intro hmatch
    cases cs with
    | nil => exact hmatch.elim
    | cons c cs =>
      have hc : c = '[' := by simpa [Piece.accepts] using hmatch.1
      subst hc
      exact .bracket hopen hmatch.2

end WildcardMatch

theorem foldr_parseWildcard (pattern cs : List Char) :
    (parseWildcard pattern).foldr Piece.Before (· = []) cs ↔ WildcardMatch pattern cs := by
  unfold parseWildcard
  cases pattern with
  | nil => exact WildcardMatch.nil_iff.symm
  | cons c pattern =>
    have hrest := foldr_parseWildcard pattern
    unfold Piece.parseAfter
    by_cases hstar : c = '*'
    · subst hstar
      exact (Piece.Before.congr hrest .star cs).trans WildcardMatch.star_iff.symm
    by_cases hany : c = '?'
    · subst hany
      exact (Piece.Before.congr hrest .any cs).trans WildcardMatch.any_iff.symm
    by_cases hbracket : c = '['
    · subst hbracket
      cases hbody : Piece.setBody? pattern with
      | none =>
        rw [if_neg hstar, if_neg hany, if_pos rfl]
        exact (Piece.Before.congr hrest (.literal '[') cs).trans (WildcardMatch.bracket_iff hbody).symm
      | some body =>
        have hafter := foldr_parseWildcard (pattern.drop (body.length + 1))
        rw [if_neg hstar, if_neg hany, if_pos rfl]
        dsimp only
        rw [Piece.parseAfter_skip]
        exact (Piece.Before.congr hafter (.ofSetBody body) cs).trans (WildcardMatch.set_iff hbody).symm
    · rw [if_neg hstar, if_neg hany, if_neg hbracket]
      have hc : c ∉ ['*', '?', '['] := by simp [hstar, hany, hbracket]
      exact (Piece.Before.congr hrest (.literal c) cs).trans (WildcardMatch.literal_iff hc).symm
termination_by pattern.length

/-- The table matches a name just if the text of the wildcard stands for it. -/
theorem matchesWildcard_iff (pattern name : List Char) :
    matchesWildcard pattern name = true ↔ WildcardMatch pattern name :=
  (matchesPieces_iff _ _).trans (foldr_parseWildcard pattern name)

end EditorClient
