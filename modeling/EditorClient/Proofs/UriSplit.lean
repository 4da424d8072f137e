import EditorClient.Proofs.HostAddress
import EditorClient.Text.Blank
import EditorClient.Uri.Scheme
import Mathlib.Data.List.TakeWhile

/-! Where a URI is split, by the form of its parts, and which URIs can be split at all: those without an
authority, and those with an authority that is well formed. -/

namespace EditorClient

/-- Leading controls and spaces and every tab and line break are no part of a URI. -/
def StripsTo (uri cs : List Char) : Prop :=
  ∃ front rest, uri = front ++ rest ∧ (∀ c ∈ front, c.toNat ≤ 0x20) ∧
    (∀ c ∈ rest.head?, 0x20 < c.toNat) ∧ cs = rest.filter fun c => c ∉ ['\t', '\r', '\n']

/-- A letter, and then letters, digits, `+`, `-` and `.`. -/
def SchemeText (scheme : List Char) : Prop :=
  ∃ c others, scheme = c :: others ∧ c.isAlpha = true ∧
    ∀ d ∈ others, d.isAlphanum = true ∨ d ∈ ['+', '-', '.']

/-- What follows the scheme and its colon, or the whole text if it does not begin with a scheme. -/
inductive AfterScheme : List Char → List Char → Prop
  | named {scheme rest : List Char} (h : SchemeText scheme) : AfterScheme (scheme ++ ':' :: rest) rest
  | bare {cs : List Char} (h : ∀ scheme rest, cs = scheme ++ ':' :: rest → ¬SchemeText scheme) :
      AfterScheme cs cs

/-- The authority comes after two slashes, up to the path, the query or the fragment. -/
inductive AuthorityText : List Char → List Char → Prop
  | mk {authority rest : List Char} (hauthority : ∀ c ∈ authority, c ∉ ['/', '?', '#'])
      (hrest : ∀ c ∈ rest.head?, c ∈ ['/', '?', '#']) :
      AuthorityText ('/' :: '/' :: authority ++ rest) authority

/-- The user comes before the last `@`. -/
def AfterUser (authority rest : List Char) : Prop :=
  '@' ∉ rest ∧ (authority = rest ∨ ∃ user, authority = user ++ '@' :: rest)

/-- The host is between brackets, with at most a port after them. It goes without the second bracket, or
without both, if the user has them. -/
inductive BracketedHost : List Char → List Char → Prop
  | closed {host port : List Char} (hhost : ']' ∉ host) (hport : ∀ c ∈ port.head?, c = ':') :
      BracketedHost ('[' :: host ++ ']' :: port) host
  | unclosed {host : List Char} (hhost : ']' ∉ host) : BracketedHost ('[' :: host) host
  | bare {host port : List Char} (hhost : ':' ∉ host) (hport : ∀ c ∈ port.head?, c = ':')
      (hopen : '[' ∉ host ++ port) : BracketedHost (host ++ port) host

/-- Brackets come in pairs, around the address of a host, and no character decomposes to a delimiter. -/
structure WellFormedAuthority (authority : List Char) : Prop where
  plain : ∀ c ∈ authority, c.toNat ∉ delimiterLookalikes
  paired : '[' ∈ authority ↔ ']' ∈ authority
  literal : '[' ∈ authority →
    ∃ rest host, AfterUser authority rest ∧ BracketedHost rest host ∧ HostLiteral host

/-- Nothing of the URI stands in the way of splitting it. -/
def Splits (uri : List Char) : Prop :=
  ∀ cs rest authority, StripsTo uri cs → AfterScheme cs rest → AuthorityText rest authority →
    WellFormedAuthority authority

section Scheme

variable {uri cs rest scheme : List Char}

theorem stripsTo_iff : StripsTo uri cs ↔ cs = cleanUri uri := by
  have hfilter (text : List Char) : (text.filter fun c => c ∉ ['\t', '\r', '\n']) =
      text.filter fun c => c != '\t' && c != '\r' && c != '\n' := by
    congr 1
    funext c
    simp [Bool.and_assoc, bne, BEq.beq]
  constructor
  · rintro ⟨front, rest, rfl, hfront, hrest, rfl⟩
    have hdrop : (front ++ rest).dropWhile (fun c => decide (c.toNat ≤ 0x20)) = rest :=
      dropWhile_stop (by simpa using hfront) (by simpa using hrest)
    rw [cleanUri, hdrop, hfilter]
  · rintro rfl
    refine ⟨_, _, List.takeWhile_append_dropWhile.symm, fun c hc => ?_, fun c hc => ?_,
      (hfilter _).symm⟩
    · simpa using List.mem_takeWhile_imp hc
    · simpa using head?_dropWhile c hc

theorem schemeText_iff :
    SchemeText scheme ↔ (scheme.head?.any Char.isAlpha && scheme.all isSchemeChar) = true := by
  have hchar (d : Char) : isSchemeChar d = true ↔ d.isAlphanum = true ∨ d ∈ ['+', '-', '.'] := by
    simp [isSchemeChar, or_assoc]
  cases scheme with
  | nil => simp [SchemeText]
  | cons c others =>
    simp only [List.head?_cons, Option.any_some, List.all_cons, Bool.and_eq_true, List.all_eq_true,
      hchar]
    constructor
    · rintro ⟨_, _, heq, hc, hothers⟩
      obtain ⟨rfl, rfl⟩ := List.cons.inj heq
      exact ⟨hc, .inl (by simp [Char.isAlphanum, hc]), hothers⟩
    · exact fun h => ⟨c, others, rfl, h.1, h.2.2⟩

theorem SchemeText.isSchemeChar (h : SchemeText scheme) : ∀ c ∈ scheme, isSchemeChar c = true := by
  have hh := schemeText_iff.mp h
  simp only [Bool.and_eq_true, List.all_eq_true] at hh
  exact hh.2

theorem SchemeText.colon_not_mem (h : SchemeText scheme) : ':' ∉ scheme :=
  not_mem_of_all h.isSchemeChar rfl

theorem toNat_lt_of_isSchemeChar {c : Char} (h : EditorClient.isSchemeChar c = true) : c.toNat < 128 := by
  simp only [EditorClient.isSchemeChar, Bool.or_eq_true, beq_iff_eq] at h
  rcases h with ((h | rfl) | rfl) | rfl
  · change (decide (c.val ≥ 'A'.val ∧ c.val ≤ 'Z'.val) || c.val ≥ 'a'.val && c.val ≤ 'z'.val ||
      c.isDigit) = true at h
    simp only [Bool.or_eq_true, Bool.and_eq_true, decide_eq_true_eq, UInt32.le_iff_toNat_le,
      isDigit_iff] at h
    change (_ ∧ c.toNat ≤ 90 ∨ _ ∧ c.toNat ≤ 122) ∨ _ at h
    omega
  · decide
  · decide
  · decide

theorem SchemeText.lowerCase_eq (h : SchemeText scheme) : lowerCase scheme = scheme.map lowerAscii :=
  lowerCase_ascii fun c hc => toNat_lt_of_isSchemeChar (h.isSchemeChar c hc)

theorem SchemeText.length_lowerCase (h : SchemeText scheme) :
    (lowerCase scheme).length = scheme.length := by
  rw [h.lowerCase_eq, List.length_map]

theorem splitScheme_of_scheme (h : SchemeText scheme) (rest : List Char) :
    splitScheme (scheme ++ ':' :: rest) = (lowerCase scheme, rest) := by
  rw [splitScheme, cut_append h.colon_not_mem]
  dsimp only
  rw [if_pos (schemeText_iff.mp h), ← h.lowerCase_eq]

theorem splitScheme_of_bare (h : ∀ scheme rest, cs = scheme ++ ':' :: rest → ¬SchemeText scheme) :
    splitScheme cs = ([], cs) := by
  by_cases hmem : ':' ∈ cs
  · obtain ⟨scheme, rest, rfl, hcolon⟩ := List.eq_append_cons_of_mem hmem
    rw [splitScheme, cut_append hcolon]
    dsimp only
    rw [if_neg fun hh => h scheme rest rfl (schemeText_iff.mpr hh)]
  · rw [splitScheme, cut_of_not_mem hmem]

theorem afterScheme_iff : AfterScheme cs rest ↔ rest = (splitScheme cs).2 := by
  constructor
  · intro h
    cases h with
    | named h => rw [splitScheme_of_scheme h]
    | bare h => rw [splitScheme_of_bare h]
  · rintro rfl
    by_cases h : ∃ scheme rest, cs = scheme ++ ':' :: rest ∧ SchemeText scheme
    · obtain ⟨scheme, rest, rfl, h⟩ := h
      rw [splitScheme_of_scheme h]
      exact .named h
    · have hbare : ∀ scheme rest, cs = scheme ++ ':' :: rest → ¬SchemeText scheme :=
        fun scheme rest hcs hscheme => h ⟨scheme, rest, hcs, hscheme⟩
      rw [splitScheme_of_bare hbare]
      exact .bare hbare

end Scheme

section Authority

variable {cs rest host authority : List Char}

theorem authorityText_iff : AuthorityText cs authority ↔ authority? cs = some authority := by
  constructor
  · intro h
    cases h with
    | mk hauthority hrest =>
      refine congrArg some (takeWhile_stop (fun c hc => ?_) fun c hc => ?_)
      · simpa [and_assoc] using hauthority c hc
      · simpa [Classical.or_iff_not_imp_left] using hrest c hc
  · intro h
    unfold authority? at h
    split at h
    · rename_i cs
      obtain rfl := Option.some.inj h
      let inside (c : Char) : Bool := c != '/' && c != '?' && c != '#'
      have hinside : ∀ c ∈ cs.takeWhile inside, c ∉ ['/', '?', '#'] := fun c hc => by
        simpa [inside, and_assoc] using List.mem_takeWhile_imp hc
      have hafter : ∀ c ∈ (cs.dropWhile inside).head?, c ∈ ['/', '?', '#'] := fun c hc => by
        simpa [inside, Classical.or_iff_not_imp_left] using head?_dropWhile c hc
      have htext := AuthorityText.mk hinside hafter
      rwa [List.cons_append, List.cons_append, List.takeWhile_append_dropWhile] at htext
    · cases h

theorem afterUser_append (user : List Char) (huser : ∀ c ∈ user.getLast?, c = '@') (hrest : '@' ∉ rest) :
    afterUser (user ++ rest) = rest := by
  have hall : ∀ c ∈ rest.reverse, (c != '@') = true := fun c hc => by
    have hne : c ≠ '@' := fun hh => hrest (hh ▸ List.mem_reverse.mp hc)
    simpa using hne
  rw [afterUser, List.reverse_append, takeWhile_stop hall (by simpa using huser), List.reverse_reverse]

theorem afterUser_iff : AfterUser authority rest ↔ rest = afterUser authority := by
  have hnone {text : List Char} (h : '@' ∉ text) : afterUser text = text :=
    afterUser_append [] nofun h
  have hsome {text user : List Char} (h : '@' ∉ text) : afterUser (user ++ '@' :: text) = text := by
    simpa using afterUser_append (user ++ ['@']) (by simp) h
  constructor
  · rintro ⟨hrest, rfl | ⟨user, rfl⟩⟩
    · exact (hnone hrest).symm
    · exact (hsome hrest).symm
  · rintro rfl
    by_cases hmem : '@' ∈ authority
    · -- the last `@` is the first from behind
      obtain ⟨rest, user, hreverse, hno⟩ := List.eq_append_cons_of_mem (List.mem_reverse.mpr hmem)
      have hauthority : authority = user.reverse ++ '@' :: rest.reverse := by
        simpa using congrArg List.reverse hreverse
      have hrest : '@' ∉ rest.reverse := fun hh => hno (List.mem_reverse.mp hh)
      rw [hauthority, hsome hrest]
      exact ⟨hrest, .inr ⟨_, rfl⟩⟩
    · rw [hnone hmem]
      exact ⟨hmem, .inl rfl⟩

theorem isPort_iff {port : List Char} :
    (port.isEmpty || port.head? == some ':') = true ↔ ∀ c ∈ port.head?, c = ':' := by
  cases port <;> simp

theorem bracketProblem?_of_host (h : BracketedHost (afterUser authority) host) :
    bracketProblem? authority = bracketedHostProblem? host := by
  have hopened (bracketed : List Char) : cut '[' ('[' :: bracketed) = ([], some bracketed) :=
    cut_append List.not_mem_nil bracketed
  simp only [bracketProblem?]
  generalize afterUser authority = rest at h
  cases h with
  | @closed host port hhost hport =>
    rw [List.cons_append, hopened]
    simp only [cut_append hhost]
    rw [Option.getD_some, isPort_iff.mpr hport]
    rfl
  | unclosed hhost =>
    rw [hopened]
    simp only [cut_of_not_mem hhost]
    rfl
  | @bare host port hhost hport hopen =>
    rw [cut_of_not_mem hopen]
    cases port with
    | nil => rw [List.append_nil, cut_of_not_mem hhost]
    | cons c port =>
      obtain rfl := hport c rfl
      rw [cut_append hhost]

theorem eq_nil_of_brackets_none {before port : List Char} {problem : Option UriProblem}
    (h : (if !before.isEmpty || !(port.isEmpty || port.head? == some ':') then some .brackets
      else problem) = none) : before = [] ∧ ∀ c ∈ port.head?, c = ':' := by
  split at h
  · cases h
  · rename_i hplace
    rw [← isPort_iff, ← List.isEmpty_iff]
    simpa only [Bool.or_eq_true, not_or, Bool.not_eq_true', Bool.not_eq_false] using hplace

theorem exists_bracketedHost (h : bracketProblem? authority = none) :
    ∃ host, BracketedHost (afterUser authority) host := by
  simp only [bracketProblem?] at h
  generalize afterUser authority = rest at h
  by_cases hopen : '[' ∈ rest
  · obtain ⟨before, bracketed, rfl, hbefore⟩ := List.eq_append_cons_of_mem hopen
    rw [cut_append hbefore] at h
    by_cases hclose : ']' ∈ bracketed
    · obtain ⟨host, port, rfl, hhost⟩ := List.eq_append_cons_of_mem hclose
      simp only [cut_append hhost, Option.getD_some] at h
      obtain ⟨rfl, hport⟩ := eq_nil_of_brackets_none h
      exact ⟨host, .closed hhost hport⟩
    · simp only [cut_of_not_mem hclose] at h
      obtain ⟨rfl, _⟩ := eq_nil_of_brackets_none h
      exact ⟨bracketed, .unclosed hclose⟩
  · by_cases hcolon : ':' ∈ rest
    · obtain ⟨host, port, rfl, hhost⟩ := List.eq_append_cons_of_mem hcolon
      exact ⟨host, .bare hhost (by simp) hopen⟩
    · rw [← List.append_nil rest] at hopen ⊢
      exact ⟨rest, .bare hcolon nofun hopen⟩

theorem bracketProblem?_eq_none_iff : bracketProblem? authority = none ↔
    ∃ rest host, AfterUser authority rest ∧ BracketedHost rest host ∧ HostLiteral host := by
  constructor
  · intro h
    obtain ⟨host, hhost⟩ := exists_bracketedHost h
    rw [bracketProblem?_of_host hhost, bracketedHostProblem?_eq_none_iff] at h
    exact ⟨_, host, afterUser_iff.mpr rfl, hhost, h⟩
  · rintro ⟨rest, host, hrest, hhost, hliteral⟩
    obtain rfl := afterUser_iff.mp hrest
    rw [bracketProblem?_of_host hhost]
    exact bracketedHostProblem?_eq_none_iff.mpr hliteral

theorem authorityProblem?_eq_none_iff :
    authorityProblem? authority = none ↔ WellFormedAuthority authority := by
  have hplain : (authority.any fun c => delimiterLookalikes.contains c.toNat) = false ↔
      ∀ c ∈ authority, c.toNat ∉ delimiterLookalikes := by simp
  have hiff : WellFormedAuthority authority ↔
      (∀ c ∈ authority, c.toNat ∉ delimiterLookalikes) ∧ ('[' ∈ authority ↔ ']' ∈ authority) ∧
        ('[' ∈ authority → bracketProblem? authority = none) :=
    ⟨fun h => ⟨h.plain, h.paired, fun hopen => bracketProblem?_eq_none_iff.mpr (h.literal hopen)⟩,
      fun h => ⟨h.1, h.2.1, fun hopen => bracketProblem?_eq_none_iff.mp (h.2.2 hopen)⟩⟩
  rw [hiff, ← hplain]
  simp only [authorityProblem?, List.contains_eq_mem]
  by_cases hopen : '[' ∈ authority <;> by_cases hclose : ']' ∈ authority
  · cases hproblem : bracketProblem? authority <;> simp [hopen, hclose]
  · simp [hopen, hclose]
  · simp [hopen, hclose]
  · simp [hopen, hclose]

theorem uriScheme_eq_ok_iff {uri scheme : List Char} :
    uriScheme uri = .ok scheme ↔ scheme = (splitScheme (cleanUri uri)).1 ∧ Splits uri := by
  have hsplits : Splits uri ↔
      (authority? (splitScheme (cleanUri uri)).2).bind authorityProblem? = none := by
    simp only [Splits, stripsTo_iff, afterScheme_iff, authorityText_iff,
      ← authorityProblem?_eq_none_iff, Option.bind_eq_none_iff]
    exact ⟨fun h authority hauthority => h _ _ authority rfl rfl hauthority,
      fun h _ _ authority hcs hrest hauthority => h authority (by rw [← hcs, ← hrest]; exact hauthority)⟩
  rw [hsplits]
  unfold uriScheme
  dsimp only
  split
  · rename_i problem hproblem
    simp [hproblem]
  · rename_i hnone
    simp [hnone, eq_comm]

end Authority

end EditorClient
