import EditorClient.Proofs.GlobMatch

/-! Globs with several `**/` before them. One is left out, and stands for any number of directories; each
other one stands for a part of the path that must be there. -/

namespace EditorClient

/-- So many times `**/`. -/
def anyDirectories : Nat → List Char
  | 0 => []
  | k + 1 => '*' :: '*' :: '/' :: anyDirectories k

/-- How many of so many `**/` before a glob are still there when one is left out. -/
def directoriesLeft (k : Nat) (glob : List Char) : Nat :=
  if ['*', '*', '/'] <+: glob then k else k - 1

theorem anyDirectories_append (k : Nat) (glob : List Char) :
    anyDirectories k ++ '*' :: '*' :: '/' :: glob = anyDirectories (k + 1) ++ glob := by
  induction k with
  | zero => rfl
  | succ k ih => simp [anyDirectories, ih]

theorem dropAnyDirectory_of_not_prefix {glob : List Char} (h : ¬['*', '*', '/'] <+: glob) :
    dropAnyDirectory glob = glob := by
  unfold dropAnyDirectory
  split
  · exact absurd ⟨_, rfl⟩ h
  · rfl

theorem dropAnyDirectory_anyDirectories (k : Nat) (glob : List Char) :
    dropAnyDirectory (anyDirectories k ++ glob) =
      anyDirectories (directoriesLeft k glob) ++ dropAnyDirectory glob := by
  by_cases h : ['*', '*', '/'] <+: glob
  · obtain ⟨rest, rfl⟩ := h
    have hmore : anyDirectories k ++ (['*', '*', '/'] ++ rest) = anyDirectories (k + 1) ++ rest :=
      anyDirectories_append k rest
    rw [directoriesLeft, if_pos ⟨rest, rfl⟩, hmore]
    rfl
  · rw [directoriesLeft, if_neg h, dropAnyDirectory_of_not_prefix h]
    cases k with
    | zero => exact dropAnyDirectory_of_not_prefix h
    | succ k => rfl

theorem fields_anyDirectories (k : Nat) (glob : List Char) :
    fields '/' (anyDirectories k ++ glob) = List.replicate k ['*', '*'] ++ fields '/' glob := by
  induction k with
  | zero => rfl
  | succ k ih =>
    have hh := fields_append (show '/' ∉ ['*', '*'] by decide) (anyDirectories k ++ glob)
    rw [List.replicate_succ, List.cons_append, ← ih, ← hh]
    rfl

theorem WildcardMatch.star_all (cs : List Char) : WildcardMatch ['*'] cs := by
  induction cs with
  | nil => exact .starOver .done
  | cons c cs ih => exact .starMore ih

theorem WildcardMatch.star_star_all (cs : List Char) : WildcardMatch ['*', '*'] cs :=
  star_star_iff.mpr (star_all cs)

/-- Wildcards that stand for everything only need so many names to stand for. -/
theorem forall₂_replicate_append {k : Nat} {patterns names : List (List Char)} :
    List.Forall₂ WildcardMatch (List.replicate k ['*', '*'] ++ patterns) names ↔
      ∃ front last, names = front ++ last ∧ front.length = k ∧
        List.Forall₂ WildcardMatch patterns last := by
  induction k generalizing names with
  | zero => simp
  | succ k ih =>
    rw [List.replicate_succ, List.cons_append, List.forall₂_cons_left_iff]
    constructor
    · rintro ⟨name, names, _, hrest, rfl⟩
      obtain ⟨front, last, rfl, hfront, hlast⟩ := ih.mp hrest
      exact ⟨name :: front, last, rfl, by simp [hfront], hlast⟩
    · rintro ⟨front, last, rfl, hfront, hlast⟩
      obtain ⟨name, front, rfl⟩ := List.exists_cons_of_length_eq_add_one hfront
      exact ⟨name, front ++ last, .star_star_all name,
        ih.mpr ⟨front, last, rfl, by simpa using hfront, hlast⟩, rfl⟩

namespace Path

/-- The last parts of the path are matched one by one, and so many others stand before them. -/
def EndsAfter (p : Path) (room : Nat) (patterns : List (List Char)) : Prop :=
  ∃ front last, p.parts = front ++ last ∧ room ≤ front.length ∧
    List.Forall₂ WildcardMatch patterns last

variable {p glob : Path} {patterns : List (List Char)} {room : Nat}

theorem endsAfter_replicate :
    p.EndsAfter 0 (List.replicate room ['*', '*'] ++ patterns) ↔ p.EndsAfter room patterns := by
  simp only [EndsAfter, forall₂_replicate_append]
  constructor
  · rintro ⟨front, _, hparts, _, mid, last, rfl, hmid, hlast⟩
    exact ⟨front ++ mid, last, by simpa using hparts, by simp [hmid], hlast⟩
  · rintro ⟨front, last, hparts, hroom, hlast⟩
    refine ⟨front.take (front.length - room), front.drop (front.length - room) ++ last, ?_,
      Nat.zero_le _, front.drop (front.length - room), last, rfl, ?_, hlast⟩
    · rw [← List.append_assoc, List.take_append_drop, hparts]
    · rw [List.length_drop]
      omega

theorem EndsAfter.zero (h : p.EndsAfter room patterns) : p.EndsAfter 0 patterns := by
  obtain ⟨front, last, hparts, _, hlast⟩ := h
  exact ⟨front, last, hparts, Nat.zero_le _, hlast⟩

/-- If the parts end in the right way at all, only their number matters. -/
theorem EndsAfter.iff_length (h : p.EndsAfter 0 patterns) :
    p.EndsAfter room patterns ↔ room + patterns.length ≤ p.parts.length := by
  constructor
  · rintro ⟨front, last, hparts, hroom, hlast⟩
    rw [hparts, List.length_append, hlast.length_eq]
    omega
  · intro hle
    obtain ⟨front, last, hparts, _, hlast⟩ := h
    refine ⟨front, last, hparts, ?_, hlast⟩
    rw [hparts, List.length_append, hlast.length_eq] at hle
    omega

theorem matchesPattern?_of_relative (hrel : glob.isAbsolute = false) (hnames : glob.names ≠ []) :
    ∃ b, p.matchesPattern? glob = some b ∧ (b = true ↔ p.EndsAfter 0 glob.names) := by
  have hsome : glob.parts.isEmpty = false := by simpa [parts_of_relative hrel] using hnames
  unfold matchesPattern?
  rw [hsome, if_neg Bool.false_ne_true, hrel, if_neg Bool.false_ne_true]
  refine ⟨_, rfl, ?_⟩
  by_cases hle : glob.names.length ≤ p.parts.length
  · have hsplit := List.take_append_drop (p.parts.length - glob.names.length) p.parts
    have hlast : glob.names.length = (p.parts.drop (p.parts.length - glob.names.length)).length := by
      rw [List.length_drop]
      omega
    have heach : matchesEach glob.names.reverse (p.parts.take (p.parts.length - glob.names.length) ++
        p.parts.drop (p.parts.length - glob.names.length)).reverse = true ↔ _ :=
      matchesEach_reverse_iff hlast
    rw [hsplit] at heach
    rw [decide_eq_true hle, Bool.true_and, heach]
    constructor
    · exact fun h => ⟨_, _, hsplit.symm, Nat.zero_le _, h⟩
    · rintro ⟨front, last, hparts, _, h⟩
      have hcount : p.parts.length - glob.names.length = front.length := by
        rw [hparts, List.length_append, h.length_eq]
        omega
      rwa [hcount, hparts, List.drop_left]
  · rw [decide_eq_false hle, Bool.false_and]
    refine ⟨fun h => absurd h Bool.false_ne_true, ?_⟩
    rintro ⟨front, last, hparts, _, h⟩
    rw [hparts, List.length_append, h.length_eq] at hle
    omega

theorem ofChars_anyDirectories (k : Nat) (glob : List Char) :
    ofChars (anyDirectories (k + 1) ++ glob) =
      ⟨.none, List.replicate (k + 1) ['*', '*'] ++ (ofChars glob).names⟩ := by
  have hname : isName ['*', '*'] = true := rfl
  rw [ofChars, fields_anyDirectories, List.filter_append, List.filter_replicate, if_pos hname]
  rfl

theorem matchesGlob?_of_left {k : Nat} {glob : String}
    (h : directoriesLeft k glob.toList = room + 1) :
    ∃ b, p.matchesGlob? (String.ofList (anyDirectories k) ++ glob) = some b ∧
      (b = true ↔ p.EndsAfter (room + 1) (ofChars (dropAnyDirectory glob.toList)).names) := by
  rw [matchesGlob?, String.toList_append, String.toList_ofList, dropAnyDirectory_anyDirectories, h,
    ofChars_anyDirectories, ← endsAfter_replicate]
  exact matchesPattern?_of_relative rfl (by simp [List.replicate_succ])

theorem matchesGlob?_anyDirectories_eq_iff (p : Path) (glob : String) (k : Nat) :
    p.matchesGlob? (String.ofList (anyDirectories k) ++ glob) = p.matchesGlob? glob ↔
      directoriesLeft k glob.toList = 0 ∨ ∃ b, p.matchesGlob? glob = some b ∧
        (b = true ↔
          p.EndsAfter (directoriesLeft k glob.toList) (ofChars (dropAnyDirectory glob.toList)).names) := by
  by_cases hnone : directoriesLeft k glob.toList = 0
  · have hsame : p.matchesGlob? (String.ofList (anyDirectories k) ++ glob) = p.matchesGlob? glob := by
      rw [matchesGlob?, String.toList_append, String.toList_ofList, dropAnyDirectory_anyDirectories,
        hnone]
      rfl
    exact ⟨fun _ => .inl hnone, fun _ => hsame⟩
  · obtain ⟨room, hroom⟩ := Nat.exists_eq_succ_of_ne_zero hnone
    obtain ⟨b, hb, hends⟩ := matchesGlob?_of_left (p := p) hroom
    rw [hb, hroom]
    constructor
    · exact fun h => .inr ⟨b, h.symm, hends⟩
    · rintro (h | ⟨b', hb', hends'⟩)
      · exact absurd h (Nat.succ_ne_zero room)
      · rw [hb', Bool.eq_iff_iff.mpr (hends.trans hends'.symm)]

/-- A path that is not matched does not end in the right way. One that is matched may only be too short. -/
theorem matchesPattern?_endsAfter_iff (hrel : glob.isAbsolute = false) (hnames : glob.names ≠ []) :
    (room = 0 ∨ ∃ b, p.matchesPattern? glob = some b ∧ (b = true ↔ p.EndsAfter room glob.names)) ↔
      (p.matchesPattern? glob = some true → room + glob.names.length ≤ p.parts.length) := by
  obtain ⟨b, hb, hends⟩ := matchesPattern?_of_relative (p := p) hrel hnames
  rw [hb]
  cases b with
  | false =>
    have hnone : ¬p.EndsAfter room glob.names := fun h =>
      absurd (hends.mpr h.zero) Bool.false_ne_true
    exact ⟨fun _ h => by simp at h, fun _ => .inr ⟨false, rfl, by simp [hnone]⟩⟩
  | true =>
    have hlength : p.EndsAfter room glob.names ↔ room + glob.names.length ≤ p.parts.length :=
      (hends.mp rfl).iff_length
    constructor
    · rintro (rfl | ⟨b', hb', hends'⟩) _
      · exact hlength.mp (hends.mp rfl)
      · exact hlength.mp (hends'.mp (Option.some.inj hb').symm)
    · exact fun h => .inr ⟨true, rfl, by simpa using hlength.mpr (h rfl)⟩

/-- With some `**/` before it a glob matches the paths that it matches without them if at most one is
there. Otherwise a path needs, before the parts that the rest of the glob matches, as many as there are
`**/` left; so a path that is matched without them must be long enough. -/
theorem matchesGlob?_anyDirectories_iff (p : Path) (glob : String) (k : Nat) :
    let rest := ofChars (dropAnyDirectory glob.toList)
    let left := directoriesLeft k glob.toList
    (p.matchesGlob? (String.ofList (anyDirectories k) ++ glob) = p.matchesGlob? glob ↔
      left = 0 ∨ ∃ b, p.matchesGlob? glob = some b ∧ (b = true ↔ p.EndsAfter left rest.names)) ∧
    (rest.isAbsolute = false → rest.names ≠ [] →
      (p.matchesGlob? (String.ofList (anyDirectories k) ++ glob) = p.matchesGlob? glob ↔
        (p.matchesGlob? glob = some true → left + rest.names.length ≤ p.parts.length))) := by
  intro rest left
  have hgeneral := matchesGlob?_anyDirectories_eq_iff p glob k
  exact ⟨hgeneral, fun hrel hnames => hgeneral.trans (matchesPattern?_endsAfter_iff hrel hnames)⟩

theorem matchesGlob?_anyDirectories_iff_deeper :
    let p := ofString "home/lab/data/book.mfd"
    (ofChars (dropAnyDirectory "data/*.mfd".toList)).names ≠ [] ∧
      p.matchesGlob? (String.ofList (anyDirectories 3) ++ "data/*.mfd") =
        p.matchesGlob? "data/*.mfd" := by
  intro p
  have hnames : (ofChars (dropAnyDirectory "data/*.mfd".toList)).names ≠ [] := by decide
  have hh := matchesGlob?_anyDirectories_iff p "data/*.mfd" 3
  exact ⟨hnames, (hh.2 (by decide) hnames).mpr fun _ => by decide⟩

/-- A file that lies in no directory is not matched once a second `**/` is there. -/
theorem exists_directory_required : ¬∀ (text glob : String) (k : Nat),
    (ofString glob).isAbsolute = false → (ofString glob).names ≠ [] →
      (ofString text).matchesGlob? (String.ofList (anyDirectories k) ++ glob) =
        (ofString text).matchesGlob? glob := by
  intro h
  have hh := h "x" "x" 2 (by decide) (by decide)
  revert hh
  decide

end Path

end EditorClient
