import EditorClient.Glob
import EditorClient.Proofs.WildcardMatch

/-! Globs are matched from the right, one part of the glob with one part of the path. -/

namespace EditorClient

theorem matchesEach_iff {patterns names : List (List Char)} (h : patterns.length = names.length) :
    matchesEach patterns names = true ↔ List.Forall₂ WildcardMatch patterns names := by
  rw [List.forall₂_iff_zip]
  simp only [matchesEach, List.all_eq_true, matchesWildcard_iff]
  constructor
  · exact fun hall => ⟨h, fun hmem => hall _ hmem⟩
  · exact fun hall pair hmem => hall.2 hmem

/-- Names before the last ones do not matter. -/
theorem matchesEach_reverse_iff {patterns front last : List (List Char)}
    (h : patterns.length = last.length) :
    matchesEach patterns.reverse (front ++ last).reverse = true ↔
      List.Forall₂ WildcardMatch patterns last := by
  have hzip : patterns.reverse.zip (front ++ last).reverse = patterns.reverse.zip last.reverse := by
    rw [List.reverse_append]
    have hlength : patterns.reverse.length = last.reverse.length := by simp [h]
    have hh : (patterns.reverse ++ []).zip (last.reverse ++ front.reverse) =
      patterns.reverse.zip last.reverse ++ [].zip front.reverse := List.zip_append hlength
    simpa using hh
  rw [matchesEach, hzip, ← matchesEach, matchesEach_iff (by simp [h]), List.forall₂_reverse_iff]

/-- A text with a slash stands for names with a slash only. -/
theorem WildcardMatch.mem_slash {pattern name : List Char} (h : WildcardMatch ('/' :: pattern) name) :
    '/' ∈ name := by
  cases h with
  | literal => exact List.mem_cons_self ..

theorem Root.chars_of_ne_none {r : Root} (h : r ≠ .none) : ∃ rest, r.chars = '/' :: rest := by
  cases r with
  | none => exact absurd rfl h
  | single => exact ⟨[], rfl⟩
  | double => exact ⟨['/'], rfl⟩

namespace Path

/-- No name holds a slash. -/
def IsSplit (p : Path) : Prop := ∀ name ∈ p.names, '/' ∉ name

theorem isSplit_ofString (s : String) : (ofString s).IsSplit :=
  fun _ h => not_mem_of_mem_fields (List.mem_filter.mp h).1

theorem IsSplit.join {p q : Path} (hp : p.IsSplit) (hq : q.IsSplit) : (p.join q).IsSplit := by
  intro name h
  by_cases habs : q.isAbsolute = true
  · rw [Path.join, if_pos habs] at h
    exact hq name h
  · rw [join_names (by simpa using habs), List.mem_append] at h
    exact h.elim (hp name) (hq name)

theorem parts_of_relative {p : Path} (h : p.isAbsolute = false) : p.parts = p.names := by
  simp [parts, h]

variable {p glob : Path}

/-- The parts of a path end with its names. -/
theorem parts_eq_append (p : Path) : ∃ front, p.parts = front ++ p.names := by
  by_cases h : p.isAbsolute = true
  · exact ⟨[p.root.chars], by simp [parts, h]⟩
  · exact ⟨[], by simp [parts, h]⟩

/-- A path with as many names as a glob has parts is matched from the right. -/
theorem matchesPattern?_of_le (hp : p.IsSplit) (hglob : glob.parts ≠ [])
    (hle : glob.parts.length ≤ p.names.length) :
    ∃ b, p.matchesPattern? glob = some b ∧
      (b = true ↔ List.Forall₂ WildcardMatch glob.parts
        (p.names.drop (p.names.length - glob.parts.length))) := by
  have hsome : glob.parts.isEmpty = false := by simpa using hglob
  unfold matchesPattern?
  rw [hsome, if_neg Bool.false_ne_true]
  by_cases habs : glob.isAbsolute = true
  · -- a root stands for no name
    have hparts : glob.parts = glob.root.chars :: glob.names := by simp [parts, habs]
    have hlength : glob.names.length ≠ p.names.length := by
      rw [hparts, List.length_cons] at hle
      omega
    rw [if_pos habs]
    refine ⟨_, rfl, ?_⟩
    have hfalse : ¬List.Forall₂ WildcardMatch glob.parts
        (p.names.drop (p.names.length - glob.parts.length)) := by
      intro hmatch
      obtain ⟨rest, hroot⟩ := Root.chars_of_ne_none (by simpa [isAbsolute] using habs)
      rw [hparts, hroot, List.forall₂_cons_left_iff] at hmatch
      obtain ⟨name, names, hname, _, hnames⟩ := hmatch
      have hmem : name ∈ p.names := by
        apply List.mem_of_mem_drop
        rw [hnames]
        exact List.mem_cons_self ..
      exact hp name hmem hname.mem_slash
    simp [hlength, hfalse]
  · have hrel : glob.parts = glob.names := parts_of_relative (by simpa using habs)
    obtain ⟨front, hfront⟩ := p.parts_eq_append
    rw [hrel] at hle ⊢
    have hcount : glob.names.length ≤ p.parts.length := by
      rw [hfront, List.length_append]
      omega
    have hsplit : p.parts = front ++ p.names.take (p.names.length - glob.names.length) ++
        p.names.drop (p.names.length - glob.names.length) := by
      rw [List.append_assoc, List.take_append_drop, hfront]
    have hlast : glob.names.length =
        (p.names.drop (p.names.length - glob.names.length)).length := by
      rw [List.length_drop]
      omega
    rw [if_neg habs, decide_eq_true hcount, Bool.true_and, hsplit]
    exact ⟨_, rfl, matchesEach_reverse_iff hlast⟩

/-- A relative path with fewer names than the glob has parts is not matched. -/
theorem matchesPattern?_of_lt (hrel : p.isAbsolute = false) (hlt : p.names.length < glob.parts.length) :
    p.matchesPattern? glob = some false := by
  have hsome : glob.parts.isEmpty = false := by
    rw [List.isEmpty_eq_false_iff, ← List.length_pos_iff]
    omega
  unfold matchesPattern?
  rw [hsome, if_neg Bool.false_ne_true]
  by_cases habs : glob.isAbsolute = true
  · have hroot : glob.root ≠ p.root := by
      simp only [isAbsolute, bne_iff_ne, bne_eq_false_iff_eq] at habs hrel
      rwa [hrel]
    rw [if_pos habs]
    simp [hroot]
  · have hparts : glob.parts = glob.names := parts_of_relative (by simpa using habs)
    rw [hparts] at hlt
    have hcount : ¬glob.names.length ≤ p.parts.length := by
      rw [parts_of_relative hrel]
      omega
    rw [if_neg habs]
    simp [hcount]

/-- A relative path that is matched is matched in any directory. -/
theorem matchesPattern?_join {d : Path} (hd : d.IsSplit) (hp : p.IsSplit)
    (hrel : p.isAbsolute = false) (h : p.matchesPattern? glob = some true) :
    (d.join p).matchesPattern? glob = some true := by
  have hglob : glob.parts ≠ [] := by
    intro hnone
    simp [matchesPattern?, hnone] at h
  have hle : glob.parts.length ≤ p.names.length := by
    by_contra hlt
    rw [matchesPattern?_of_lt hrel (by omega)] at h
    cases h
  have hnames : (d.join p).names = d.names ++ p.names := join_names hrel
  have hle' : glob.parts.length ≤ (d.join p).names.length := by
    rw [hnames, List.length_append]
    omega
  obtain ⟨b, hb, hmatch⟩ := matchesPattern?_of_le hp hglob hle
  obtain ⟨b', hb', hmatch'⟩ := matchesPattern?_of_le (hd.join hp) hglob hle'
  have hlast : (d.join p).names.drop ((d.join p).names.length - glob.parts.length) =
      p.names.drop (p.names.length - glob.parts.length) := by
    have hfront : d.names.drop (d.names.length + p.names.length - glob.parts.length) = [] :=
      List.drop_of_length_le (by omega)
    have hcount : d.names.length + p.names.length - glob.parts.length - d.names.length =
        p.names.length - glob.parts.length := by omega
    rw [hnames, List.length_append, List.drop_append, hfront, hcount, List.nil_append]
  rw [hlast, ← hmatch] at hmatch'
  rw [hb, Option.some.injEq] at h
  rw [hb', hmatch'.mpr h]

/-- Once a glob has lost its leading `**/`, its parts are matched one by one with the last names of a path
that has as many; a relative path with fewer is not matched. So a relative path that is matched is matched
wherever it lies. A root is a part of a glob, and `**` within one is no more than `*`. -/
theorem matchesGlob?_from_right (glob text : String)
    (hglob : (ofChars (dropAnyDirectory glob.toList)).parts ≠ []) :
    let patterns := (ofChars (dropAnyDirectory glob.toList)).parts
    let p := ofString text
    (patterns.length ≤ p.names.length → ∃ b, p.matchesGlob? glob = some b ∧
      (b = true ↔ List.Forall₂ WildcardMatch patterns
        (p.names.drop (p.names.length - patterns.length)))) ∧
    (p.isAbsolute = false → p.names.length < patterns.length → p.matchesGlob? glob = some false) ∧
    (p.isAbsolute = false → p.matchesGlob? glob = some true →
      ∀ directory, ((ofString directory).join p).matchesGlob? glob = some true) ∧
    ∀ pattern name, WildcardMatch ('*' :: '*' :: pattern) name ↔ WildcardMatch ('*' :: pattern) name :=
  ⟨matchesPattern?_of_le (isSplit_ofString text) hglob, matchesPattern?_of_lt,
    fun hrel h directory =>
      matchesPattern?_join (isSplit_ofString directory) (isSplit_ofString text) hrel h,
    fun _ _ => WildcardMatch.star_star_iff⟩

theorem matchesGlob?_from_right_deeper :
    (ofChars (dropAnyDirectory "**/data/[a-c]*.mfd".toList)).parts =
        ["data".toList, "[a-c]*.mfd".toList] ∧
      ((ofString "/home").join (ofString "lab/./data//book.mfd")).matchesGlob? "**/data/[a-c]*.mfd" =
        some true := by
  have hparts : (ofChars (dropAnyDirectory "**/data/[a-c]*.mfd".toList)).parts =
      ["data".toList, "[a-c]*.mfd".toList] := by decide
  have hh := matchesGlob?_from_right "**/data/[a-c]*.mfd" "lab/./data//book.mfd"
    (by rw [hparts]; exact List.cons_ne_nil _ _)
  exact ⟨hparts, hh.2.2.1 (by decide) (by decide) "/home"⟩

end Path

end EditorClient
