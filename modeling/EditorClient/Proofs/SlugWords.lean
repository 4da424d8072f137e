import EditorClient.Text.Slug
import Mathlib.Tactic.Common

/-! Slugs as words with single dashes between them: the maximal runs of ASCII letters and digits of the
lower-cased name. -/

namespace EditorClient

structure IsSlugWord (word : List Char) : Prop where
  nonempty : word ≠ []
  chars : ∀ c ∈ word, isSlugChar c = true

/-- Words with single dashes between them. -/
inductive SlugText : List Char → Prop
  | word {word : List Char} (h : IsSlugWord word) : SlugText word
  | dashed {word rest : List Char} (h : IsSlugWord word) (hrest : SlugText rest) :
      SlugText (word ++ '-' :: rest)

/-- The maximal runs of letters and digits, in order: what stands between other characters. -/
def slugWords (cs : List Char) : List (List Char) :=
  (cs.splitOnP fun c => !isSlugChar c).filter (· ≠ [])

theorem isSlugChar_iff {c : Char} :
    isSlugChar c = true ↔ 97 ≤ c.toNat ∧ c.toNat ≤ 122 ∨ 48 ≤ c.toNat ∧ c.toNat ≤ 57 := by
  simp only [isSlugChar, Bool.or_eq_true, Bool.and_eq_true, decide_eq_true_eq, Char.le_def,
    UInt32.le_iff_toNat_le]
  exact Iff.rfl

theorem lowerAscii_of_slugChar {c : Char} (h : isSlugChar c = true ∨ c = '-') : lowerAscii c = c := by
  refine if_neg fun hcapital => ?_
  have hrange : 65 ≤ c.toNat ∧ c.toNat ≤ 90 := by
    simp only [Char.le_def, UInt32.le_iff_toNat_le] at hcapital
    exact hcapital
  rcases h with h | rfl
  · have hc := isSlugChar_iff.mp h
    omega
  · exact absurd hrange (by decide)

section Words

variable {word cs : List Char} {words : List (List Char)}

/-- A text is a word, which may be empty, or such a word, another character and a text. -/
@[elab_as_elim]
theorem wordInduction {motive : List Char → Prop}
    (last : ∀ word, (∀ c ∈ word, isSlugChar c = true) → motive word)
    (next : ∀ word c cs, (∀ d ∈ word, isSlugChar d = true) → isSlugChar c = false → motive cs →
      motive (word ++ c :: cs)) (cs : List Char) : motive cs := by
  -- the induction is on what follows the part of a word that was read
  suffices h : ∀ word, (∀ c ∈ word, isSlugChar c = true) → motive (word ++ cs) from h [] nofun
  induction cs with
  | nil => simpa using last
  | cons c cs ih =>
    intro word hword
    cases hc : isSlugChar c with
    | true =>
      have hlonger : ∀ d ∈ word ++ [c], isSlugChar d = true := by
        simpa [or_imp, forall_and] using ⟨hword, hc⟩
      simpa using ih _ hlonger
    | false => exact next word c cs hword hc (ih [] nofun)

theorem slugWords_of_forall (h : ∀ c ∈ word, isSlugChar c = true) :
    slugWords word = [word].filter (· ≠ []) := by
  rw [slugWords, List.splitOnP_eq_singleton (by simpa using h)]

theorem slugWords_append_cons {c : Char} (hc : isSlugChar c = false) (cs : List Char) :
    slugWords (word ++ c :: cs) = slugWords word ++ slugWords cs := by
  rw [slugWords, List.splitOnP_append_cons _ _ (by simp [hc]), List.filter_append]
  rfl

theorem isSlugWord_of_mem_slugWords (cs : List Char) : ∀ word ∈ slugWords cs, IsSlugWord word := by
  have hone {word : List Char} (h : ∀ c ∈ word, isSlugChar c = true) :
      ∀ w ∈ slugWords word, IsSlugWord w := by
    intro w hw
    rw [slugWords_of_forall h, List.mem_filter, List.mem_singleton] at hw
    obtain ⟨rfl, hne⟩ := hw
    exact ⟨by simpa using hne, h⟩
  induction cs using wordInduction with
  | last word h => exact hone h
  | next word c cs h hc ih =>
    rw [slugWords_append_cons hc]
    exact List.forall_mem_append.mpr ⟨hone h, ih⟩

theorem slugWords_intercalate (h : ∀ word ∈ words, IsSlugWord word) :
    slugWords (List.intercalate ['-'] words) = words := by
  induction words with
  | nil => rfl
  | cons word words ih =>
    obtain ⟨hword, hwords⟩ := List.forall_mem_cons.mp h
    have hfirst : slugWords word = [word] := by
      rw [slugWords_of_forall hword.chars]
      simp [hword.nonempty]
    cases words with
    | nil => simpa using hfirst
    | cons next words =>
      rw [List.intercalate_cons_cons, List.append_assoc, List.singleton_append,
        slugWords_append_cons rfl, hfirst, ih hwords, List.singleton_append]

theorem slugText_intercalate (hne : words ≠ []) (h : ∀ word ∈ words, IsSlugWord word) :
    SlugText (List.intercalate ['-'] words) := by
  induction words with
  | nil => exact absurd rfl hne
  | cons word words ih =>
    obtain ⟨hword, hwords⟩ := List.forall_mem_cons.mp h
    cases words with
    | nil => simpa using SlugText.word hword
    | cons next words =>
      rw [List.intercalate_cons_cons, List.append_assoc, List.singleton_append]
      exact .dashed hword (ih (List.cons_ne_nil _ _) hwords)

theorem SlugText.ne_nil (h : SlugText cs) : cs ≠ [] := by
  cases h with
  | word h => exact h.nonempty
  | dashed => simp

theorem SlugText.head? (h : SlugText cs) : ∀ c ∈ cs.head?, isSlugChar c = true := by
  cases h with
  | word h => exact fun c hc => h.chars c (List.mem_of_head? hc)
  | @dashed word rest h =>
    obtain ⟨d, word, rfl⟩ := List.exists_cons_of_ne_nil h.nonempty
    exact fun c hc => h.chars c (by simp_all)

theorem SlugText.getLast? (h : SlugText cs) : ∀ c ∈ cs.getLast?, isSlugChar c = true := by
  induction h with
  | word h => exact fun c hc => h.chars c (List.mem_of_getLast? hc)
  | @dashed word rest h hrest ih =>
    obtain ⟨d, rest, rfl⟩ := List.exists_cons_of_ne_nil hrest.ne_nil
    simpa [List.getLast?_append, List.getLast?_cons] using ih

theorem SlugText.mem (h : SlugText cs) : ∀ c ∈ cs, isSlugChar c = true ∨ c = '-' := by
  induction h with
  | word h => exact fun c hc => .inl (h.chars c hc)
  | dashed h _ ih =>
    intro c hc
    rcases List.mem_append.mp hc with hc | hc
    · exact .inl (h.chars c hc)
    · rcases List.mem_cons.mp hc with rfl | hc
      · exact .inr rfl
      · exact ih c hc

end Words

section Runs

variable {word cs : List Char}

theorem dashRuns_append (h : ∀ c ∈ word, isSlugChar c = true) (dashed : Bool) (cs : List Char) :
    dashRuns dashed (word ++ cs) = word ++ dashRuns (dashed && word.isEmpty) cs := by
  induction word generalizing dashed with
  | nil => simp
  | cons c word ih =>
    obtain ⟨hc, hword⟩ := List.forall_mem_cons.mp h
    simp [dashRuns, hc, ih hword]

/-- Each run of other characters is one dash, and there may be one at the end. -/
theorem exists_dashRuns (cs : List Char) : ∃ dashes, (∀ c ∈ dashes, c = '-') ∧
    dashRuns true cs = List.intercalate ['-'] (slugWords cs) ++ dashes := by
  induction cs using wordInduction with
  | last word h =>
    have hruns := dashRuns_append h true []
    rw [List.append_nil] at hruns
    refine ⟨[], nofun, ?_⟩
    rw [hruns, slugWords_of_forall h]
    cases word <;> simp [dashRuns]
  | next word c cs h hc ih =>
    obtain ⟨dashes, hdashes, hruns⟩ := ih
    rw [dashRuns_append h, slugWords_append_cons hc, slugWords_of_forall h]
    cases word with
    | nil => exact ⟨dashes, hdashes, by simpa [dashRuns, hc] using hruns⟩
    | cons d word =>
      have hdash : ∀ c ∈ '-' :: dashes, c = '-' := by simpa using hdashes
      cases hwords : slugWords cs with
      | nil => exact ⟨'-' :: dashes, hdash, by simpa [dashRuns, hc, hwords] using hruns⟩
      | cons next words =>
        exact ⟨dashes, hdashes, by simp [dashRuns, hc, hwords, hruns, List.intercalate_cons_cons]⟩

end Runs

theorem trim_dashRuns (cs : List Char) :
    trim (· == '-') (dashRuns false cs) = List.intercalate ['-'] (slugWords cs) := by
  obtain ⟨front, hfront, hbegin⟩ : ∃ front, (∀ c ∈ front, c = '-') ∧
      dashRuns false cs = front ++ dashRuns true cs := by
    cases cs with
    | nil => exact ⟨[], nofun, rfl⟩
    | cons c cs =>
      cases hc : isSlugChar c with
      | true => exact ⟨[], nofun, by simp [dashRuns, hc]⟩
      | false => exact ⟨['-'], by simp, by simp [dashRuns, hc]⟩
  obtain ⟨back, hback, hruns⟩ := exists_dashRuns cs
  have hkept : ∀ c, isSlugChar c = true → (c == '-') = false := by
    intro c hc
    simpa using fun (hdash : c = '-') => absurd (hdash ▸ hc) (by decide)
  have hends : (∀ c ∈ (List.intercalate ['-'] (slugWords cs)).head?, isSlugChar c = true) ∧
      ∀ c ∈ (List.intercalate ['-'] (slugWords cs)).getLast?, isSlugChar c = true := by
    by_cases hnone : slugWords cs = []
    · simp [hnone]
    · have htext := slugText_intercalate hnone (isSlugWord_of_mem_slugWords cs)
      exact ⟨htext.head?, htext.getLast?⟩
  rw [hbegin, hruns, ← List.append_assoc]
  exact TrimsTo.trim_eq (.mk (by simpa using hfront) (by simpa using hback)
    (fun c hc => hkept c (hends.1 c hc)) fun c hc => hkept c (hends.2 c hc))

theorem SlugText.lowerCase_eq {cs : List Char} (h : SlugText cs) : lowerCase cs = cs := by
  have hascii : ∀ c ∈ cs, c.toNat < 128 := by
    intro c hc
    rcases h.mem c hc with hslug | rfl
    · have hrange := isSlugChar_iff.mp hslug
      omega
    · decide
  rw [lowerCase_ascii hascii]
  exact (List.map_congr_left fun c hc => lowerAscii_of_slugChar (h.mem c hc)).trans (List.map_id cs)

def channelWords (name : String) : List (List Char) :=
  match slugWords (lowerCase name.toList) with
  | [] => ["default".toList]
  | words => words

theorem channelWords_ne_nil (name : String) : channelWords name ≠ [] := by
  unfold channelWords
  split
  · exact List.cons_ne_nil _ _
  · assumption

theorem isSlugWord_of_mem_channelWords (name : String) : ∀ word ∈ channelWords name, IsSlugWord word := by
  unfold channelWords
  split
  · have hchars : "default".toList.all isSlugChar = true := by decide
    simpa using IsSlugWord.mk (by decide) (List.all_eq_true.mp hchars)
  · exact isSlugWord_of_mem_slugWords _

theorem toList_channelSlug (name : String) :
    (channelSlug name).toList = List.intercalate ['-'] (channelWords name) := by
  rw [channelSlug, String.toList_ofList, slugChars, trim_dashRuns, channelWords]
  cases hwords : slugWords (lowerCase name.toList) with
  | nil => simp
  | cons word words =>
    have hne := (slugText_intercalate (List.cons_ne_nil word words)
      (hwords ▸ isSlugWord_of_mem_slugWords _)).ne_nil
    dsimp only
    split
    · rename_i hnil
      exact absurd hnil hne
    · rfl

theorem slugText_channelSlug (name : String) : SlugText (channelSlug name).toList := by
  rw [toList_channelSlug]
  exact slugText_intercalate (channelWords_ne_nil name) (isSlugWord_of_mem_channelWords name)

theorem channelWords_channelSlug (name : String) :
    channelWords (channelSlug name) = channelWords name := by
  rw [channelWords, (slugText_channelSlug name).lowerCase_eq, toList_channelSlug,
    slugWords_intercalate (isSlugWord_of_mem_channelWords name)]
  split
  · rename_i hnil
    exact absurd hnil (channelWords_ne_nil name)
  · rfl

/-- The slug of a channel is the maximal runs of letters and digits of its lower-cased name with single
dashes between them, or a word of its own if there are none. It is its own slug. -/
theorem channelSlug_form (name : String) :
    SlugText (channelSlug name).toList ∧
      (channelSlug name).toList = (match slugWords (lowerCase name.toList) with
        | [] => "default".toList
        | words => List.intercalate ['-'] words) ∧
      channelSlug (channelSlug name) = channelSlug name := by
  refine ⟨slugText_channelSlug name, ?_, ?_⟩
  · rw [toList_channelSlug, channelWords]
    split <;> simp_all
  · rw [← String.toList_inj, toList_channelSlug, toList_channelSlug, channelWords_channelSlug]

example : channelSlug "[pygls] MEDFORDLanguageServer" = "pygls-medfordlanguageserver" := by decide

end EditorClient
