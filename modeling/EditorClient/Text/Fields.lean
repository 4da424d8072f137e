/-! Splitting a text at every occurrence of a separator. -/

namespace EditorClient

def fields (sep : Char) : List Char → List (List Char)
  | [] => [[]]
  | c :: cs =>
    if c = sep then [] :: fields sep cs
    else match fields sep cs with
      | [] => [[c]]
      | f :: fs => (c :: f) :: fs

theorem fields_ne_nil (sep : Char) (cs : List Char) : fields sep cs ≠ [] := by
  induction cs with
  | nil => simp [fields]
  | cons c cs ih =>
    simp only [fields]
    split
    · simp
    · split <;> simp

theorem intercalate_fields (sep : Char) (cs : List Char) :
    List.intercalate [sep] (fields sep cs) = cs := by
  induction cs with
  | nil => rfl
  | cons c cs ih =>
    simp only [fields]
    have hne := fields_ne_nil sep cs
    cases hf : fields sep cs with
    | nil => exact absurd hf hne
    | cons f fs =>
      rw [hf] at ih
      split
      next h => subst h; simp [List.intercalate] at ih ⊢; exact ih
      next h => cases fs <;> simp_all [List.intercalate]

theorem not_mem_of_mem_fields {sep : Char} {cs field : List Char} (h : field ∈ fields sep cs) :
    sep ∉ field := by
  induction cs generalizing field with
  | nil => simp_all [fields]
  | cons c cs ih =>
    by_cases hc : c = sep
    · rw [fields, if_pos hc] at h
      rcases List.mem_cons.mp h with rfl | h
      · simp
      · exact ih h
    · rw [fields, if_neg hc] at h
      cases hf : fields sep cs with
      | nil => exact absurd hf (fields_ne_nil sep cs)
      | cons f fs =>
        rw [hf] at h ih
        rcases List.mem_cons.mp h with rfl | h
        · have hfirst := ih (List.mem_cons_self ..)
          simpa [Ne.symm hc] using hfirst
        · exact ih (List.mem_cons_of_mem _ h)

theorem fields_append {sep : Char} {field : List Char} (h : sep ∉ field) (cs : List Char) :
    fields sep (field ++ sep :: cs) = field :: fields sep cs := by
  induction field with
  | nil => simp [fields]
  | cons c field ih =>
    have hc : c ≠ sep := fun hh => h (hh ▸ List.mem_cons_self ..)
    have hfield : sep ∉ field := fun hh => h (List.mem_cons_of_mem _ hh)
    simp [fields, hc, ih hfield]

theorem fields_of_not_mem {sep : Char} {field : List Char} (h : sep ∉ field) :
    fields sep field = [field] := by
  induction field with
  | nil => rfl
  | cons c field ih =>
    have hc : c ≠ sep := fun hh => h (hh ▸ List.mem_cons_self ..)
    have hfield : sep ∉ field := fun hh => h (List.mem_cons_of_mem _ hh)
    simp [fields, hc, ih hfield]

theorem fields_intercalate {sep : Char} {names : List (List Char)} (hne : names ≠ [])
    (h : ∀ name ∈ names, sep ∉ name) : fields sep (List.intercalate [sep] names) = names := by
  induction names with
  | nil => exact absurd rfl hne
  | cons name names ih =>
    obtain ⟨hname, hnames⟩ := List.forall_mem_cons.mp h
    cases names with
    | nil => simpa using fields_of_not_mem hname
    | cons next names =>
      have hrest := ih (List.cons_ne_nil _ _) hnames
      rw [List.intercalate_cons_cons, List.append_assoc, List.singleton_append, fields_append hname,
        hrest]

/-- The text before the first separator, and the text after it if there is one. -/
def cut (sep : Char) (cs : List Char) : List Char × Option (List Char) :=
  match cs.dropWhile (· != sep) with
  | [] => (cs.takeWhile (· != sep), none)
  | _ :: rest => (cs.takeWhile (· != sep), some rest)

theorem cut_append {sep : Char} {before : List Char} (h : sep ∉ before) (rest : List Char) :
    cut sep (before ++ sep :: rest) = (before, some rest) := by
  have hall : ∀ c ∈ before, (c != sep) = true := fun c hc => by
    have hne : c ≠ sep := fun hh => h (hh ▸ hc)
    simpa using hne
  simp [cut, List.dropWhile_append_of_pos hall, List.takeWhile_append_of_pos hall]

theorem cut_of_not_mem {sep : Char} {cs : List Char} (h : sep ∉ cs) : cut sep cs = (cs, none) := by
  have hall : ∀ c ∈ cs, (c != sep) = true := fun c hc => by
    have hne : c ≠ sep := fun hh => h (hh ▸ hc)
    simpa using hne
  have hdrop : (cs ++ []).dropWhile (· != sep) = [] := List.dropWhile_append_of_pos hall
  have htake : (cs ++ []).takeWhile (· != sep) = cs :=
    (List.takeWhile_append_of_pos hall).trans (List.append_nil cs)
  rw [List.append_nil] at hdrop htake
  simp [cut, hdrop, htake]

end EditorClient
