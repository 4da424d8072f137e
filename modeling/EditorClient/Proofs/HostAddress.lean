import EditorClient.Uri.Authority
import Mathlib.Tactic.Common

/-! The form of the texts that are addresses of hosts. The checks of a host between brackets accept just
these. -/

namespace EditorClient

/-- A number up to 255, without leading zeros. -/
def OctetText (cs : List Char) : Prop := ∃ n < 256, cs = Nat.toDigits 10 n

def IPv4Text (cs : List Char) : Prop :=
  ∃ octets : List (List Char), octets.length = 4 ∧ (∀ octet ∈ octets, OctetText octet) ∧
    cs = List.intercalate ['.'] octets

/-- Up to four hexadecimal digits. -/
structure GroupText (cs : List Char) : Prop where
  nonempty : cs ≠ []
  short : cs.length ≤ 4
  hex : ∀ c ∈ cs, isHexDigit c = true

/-- Fields that stand for so many groups, each for one; four octets stand for the last two. -/
inductive StandFor : List (List Char) → Nat → Prop
  | nil : StandFor [] 0
  | octets {last : List Char} (h : IPv4Text last) : StandFor [last] 2
  | cons {g : List Char} {gs : List (List Char)} {n : Nat} (hg : GroupText g) (hgs : StandFor gs n) :
      StandFor (g :: gs) (n + 1)

/-- Eight groups, or fewer with `::` in place of those that are missing. -/
inductive IPv6Address : List Char → Prop
  | full {gs : List (List Char)} (h : StandFor gs 8) : IPv6Address (List.intercalate [':'] gs)
  | gap {high low : List (List Char)} {n : Nat} (hhigh : ∀ g ∈ high, GroupText g) (hlow : StandFor low n)
      (hcount : high.length + n ≤ 7) :
      IPv6Address (List.intercalate [':'] high ++ ':' :: ':' :: List.intercalate [':'] low)

inductive IPv6Text : List Char → Prop
  | plain {address : List Char} (h : IPv6Address address) : IPv6Text address
  | zoned {address zone : List Char} (h : IPv6Address address) (hne : zone ≠ []) (hzone : '%' ∉ zone) :
      IPv6Text (address ++ '%' :: zone)

/-- An address of a version that is yet to come. -/
inductive FutureText : List Char → Prop
  | mk {version address : List Char} (hversion : version ≠ []) (hhex : ∀ c ∈ version, isHexDigit c = true)
      (haddress : address ≠ []) : FutureText ('v' :: version ++ '.' :: address)

section Octets

theorem isDigit_iff {c : Char} : c.isDigit = true ↔ 48 ≤ c.toNat ∧ c.toNat ≤ 57 := by
  simp only [Char.isDigit, Bool.and_eq_true, decide_eq_true_eq, UInt32.le_iff_toNat_le]
  exact Iff.rfl

theorem toDigits_digit {c : Char} (h : c.isDigit = true) : Nat.toDigits 10 (c.toNat - 48) = [c] := by
  have hc := isDigit_iff.mp h
  rw [Nat.toDigits_of_lt_base (by omega), List.cons.injEq, ← Char.toNat_inj,
    Nat.toNat_digitChar_of_lt_ten (by omega)]
  exact ⟨by omega, rfl⟩

/-- Digits that are read after a number are written after it. -/
theorem toDigits_foldl {n : Nat} (hn : 0 < n) {cs : List Char} (h : ∀ c ∈ cs, c.isDigit = true) :
    Nat.toDigits 10 (cs.foldl (fun n c => 10 * n + (c.toNat - 48)) n) = Nat.toDigits 10 n ++ cs := by
  induction cs generalizing n with
  | nil => simp
  | cons c cs ih =>
    obtain ⟨hc, hcs⟩ := List.forall_mem_cons.mp h
    have hvalue := isDigit_iff.mp hc
    have hnext := Nat.toDigits_append_toDigits (b := 10) (n := n) (d := c.toNat - 48) (by omega) hn
      (by omega)
    rw [List.foldl_cons, ih (by omega) hcs, ← hnext, toDigits_digit hc, List.append_assoc,
      List.singleton_append]

theorem isOctet_iff {cs : List Char} : isOctet cs = true ↔ OctetText cs := by
  constructor
  · intro h
    cases cs with
    | nil => simp [isOctet] at h
    | cons c cs =>
      simp only [isOctet, Bool.and_eq_true, List.all_eq_true, decide_eq_true_eq] at h
      obtain ⟨⟨⟨⟨_, hdigits⟩, _⟩, hzero⟩, hvalue⟩ := h
      obtain ⟨hc, hcs⟩ := List.forall_mem_cons.mp hdigits
      refine ⟨_, Nat.lt_succ_of_le hvalue, ?_⟩
      by_cases hfirst : c = '0'
      · have hnone : cs = [] := by simpa [hfirst] using hzero
        rw [hfirst, hnone]
        rfl
      · have hpos : 0 < c.toNat - 48 := by
          have hne : c.toNat ≠ '0'.toNat := fun hh => hfirst (Char.toNat_inj.mp hh)
          have hrange := isDigit_iff.mp hc
          change c.toNat ≠ 48 at hne
          omega
        rw [List.foldl_cons, Nat.mul_zero, Nat.zero_add, toDigits_foldl hpos hcs, toDigits_digit hc,
          List.singleton_append]
  · rintro ⟨n, hn, rfl⟩
    revert n
    decide +kernel

theorem OctetText.isDigit {cs : List Char} (h : OctetText cs) : ∀ c ∈ cs, c.isDigit = true := by
  have hoctet := isOctet_iff.mpr h
  simp only [isOctet, Bool.and_eq_true, List.all_eq_true] at hoctet
  exact hoctet.1.1.1.2

end Octets

theorem not_mem_of_all {p : Char → Bool} {cs : List Char} {d : Char} (h : ∀ c ∈ cs, p c = true)
    (hd : p d = false) : d ∉ cs := fun hmem => by
  have hh := h d hmem
  rw [hd] at hh
  cases hh

theorem isIPv4_iff {cs : List Char} : isIPv4 cs = true ↔ IPv4Text cs := by
  simp only [isIPv4, Bool.and_eq_true, beq_iff_eq, List.all_eq_true, isOctet_iff]
  constructor
  · exact fun h => ⟨fields '.' cs, h.1, h.2, (intercalate_fields '.' cs).symm⟩
  · rintro ⟨octets, hcount, hoctets, rfl⟩
    have hne : octets ≠ [] := by
      rintro rfl
      simp at hcount
    have hfields := fields_intercalate hne fun octet hmem =>
      not_mem_of_all (hoctets octet hmem).isDigit (by rfl : '.'.isDigit = false)
    rw [hfields]
    exact ⟨hcount, hoctets⟩

theorem isGroup_iff {cs : List Char} : isGroup cs = true ↔ GroupText cs := by
  simp only [isGroup, Bool.and_eq_true, Bool.not_eq_true', List.isEmpty_eq_false_iff,
    decide_eq_true_eq, List.all_eq_true]
  exact ⟨fun h => ⟨h.1.1, h.1.2, h.2⟩, fun h => ⟨⟨h.nonempty, h.short⟩, h.hex⟩⟩

theorem mem_intercalate {sep d : Char} {gs : List (List Char)} (h : d ∈ List.intercalate [sep] gs) :
    d = sep ∨ ∃ g ∈ gs, d ∈ g := by
  induction gs with
  | nil => simp at h
  | cons g gs ih =>
    cases gs with
    | nil => exact .inr ⟨g, List.mem_cons_self .., by simpa using h⟩
    | cons g' gs =>
      rw [List.intercalate_cons_cons, List.mem_append, List.mem_append] at h
      rcases h with (h | h) | h
      · exact .inr ⟨g, List.mem_cons_self .., h⟩
      · exact .inl (by simpa using h)
      · exact (ih h).imp_right fun ⟨g'', hmem, hd⟩ => ⟨g'', List.mem_cons_of_mem _ hmem, hd⟩

theorem IPv4Text.mem {cs : List Char} (h : IPv4Text cs) : ∀ c ∈ cs, c.isDigit = true ∨ c = '.' := by
  obtain ⟨octets, _, hoctets, rfl⟩ := h
  intro c hc
  rcases mem_intercalate hc with hdot | ⟨octet, hmem, hc⟩
  · exact .inr hdot
  · exact .inl ((hoctets octet hmem).isDigit c hc)

theorem IPv4Text.dot_mem {cs : List Char} (h : IPv4Text cs) : '.' ∈ cs := by
  obtain ⟨octets, hcount, _, rfl⟩ := h
  match octets, hcount with
  | a :: b :: octets, _ => simp [List.intercalate_cons_cons]

section Groups

variable {g cs : List Char} {gs : List (List Char)} {n : Nat}

theorem GroupText.dot_not_mem (h : GroupText g) : '.' ∉ g := not_mem_of_all h.hex rfl

theorem StandFor.field (h : StandFor gs n) : ∀ g ∈ gs, GroupText g ∨ IPv4Text g := by
  induction h with
  | nil => simp
  | octets h => simpa using Or.inr h
  | cons hg _ ih => exact List.forall_mem_cons.mpr ⟨.inl hg, ih⟩

theorem StandFor.le_length (h : StandFor gs n) : n ≤ gs.length + 1 := by
  induction h with
  | nil => simp
  | octets h => simp
  | cons hg _ ih => simpa using ih

theorem isAddressChar_of_field (h : GroupText g ∨ IPv4Text g) :
    ∀ c ∈ g, (isHexDigit c || c == '.') = true := by
  intro c hc
  rcases h with h | h
  · simp [h.hex c hc]
  · rcases h.mem c hc with hdigit | rfl
    · simp [isHexDigit, hdigit]
    · rfl

/-- The fields stand for as many groups as there are once the octets are replaced. -/
theorem standFor_iff : StandFor gs n ↔
    ∃ groups, addressGroups? gs = some groups ∧ (∀ g ∈ groups, GroupText g) ∧ groups.length = n := by
  have hzero : GroupText ['0'] := isGroup_iff.mp rfl
  induction gs generalizing n with
  | nil =>
    constructor
    · rintro ⟨⟩
      exact ⟨[], rfl, by simp, rfl⟩
    · rintro ⟨groups, hgroups, _, rfl⟩
      obtain rfl := Option.some.inj hgroups
      exact .nil
  | cons g gs ih =>
    cases gs with
    | nil =>
      by_cases hdot : '.' ∈ g
      · have hexpand : addressGroups? [g] = if isIPv4 g then some [['0'], ['0']] else none := by
          rw [addressGroups?, if_pos (by simpa using hdot)]
        rw [hexpand]
        constructor
        · intro h
          cases h with
          | octets h => exact ⟨[['0'], ['0']], if_pos (isIPv4_iff.mpr h), by simp [hzero], rfl⟩
          | cons hg _ => exact absurd hdot hg.dot_not_mem
        · rintro ⟨groups, hgroups, _, rfl⟩
          split at hgroups
          · obtain rfl := Option.some.inj hgroups
            exact .octets (isIPv4_iff.mp ‹_›)
          · cases hgroups
      · have hkeep : addressGroups? [g] = some [g] := by
          rw [addressGroups?, if_neg (by simpa using hdot)]
        rw [hkeep]
        constructor
        · intro h
          cases h with
          | octets h => exact absurd h.dot_mem hdot
          | cons hg hgs =>
            cases hgs
            exact ⟨[g], rfl, by simpa using hg, rfl⟩
        · rintro ⟨groups, hgroups, hall, rfl⟩
          obtain rfl := Option.some.inj hgroups
          exact .cons (hall g (List.mem_cons_self ..)) .nil
    | cons g' gs =>
      have hmap : addressGroups? (g :: g' :: gs) = (addressGroups? (g' :: gs)).map (g :: ·) := rfl
      rw [hmap]
      constructor
      · intro h
        cases h with
        | cons hg hgs =>
          obtain ⟨groups, hgroups, hall, rfl⟩ := ih.mp hgs
          exact ⟨g :: groups, by rw [hgroups]; rfl, List.forall_mem_cons.mpr ⟨hg, hall⟩, rfl⟩
      · rintro ⟨groups, hgroups, hall, rfl⟩
        obtain ⟨groups, hrest, rfl⟩ := Option.map_eq_some_iff.mp hgroups
        obtain ⟨hg, hall⟩ := List.forall_mem_cons.mp hall
        exact .cons hg (ih.mpr ⟨groups, hrest, hall, rfl⟩)

end Groups

section Gap

variable {high low gs : List (List Char)}

/-- The fields of groups: there is always one, though it may be empty. -/
def padded : List (List Char) → List (List Char)
  | [] => [[]]
  | gs => gs

theorem padded_ne_nil (gs : List (List Char)) : padded gs ≠ [] := by
  cases gs <;> simp [padded]

theorem padded_of_ne_nil (h : gs ≠ []) : padded gs = gs := by
  cases gs with
  | nil => exact absurd rfl h
  | cons g gs => rfl

theorem intercalate_padded (sep : Char) (gs : List (List Char)) :
    List.intercalate [sep] (padded gs) = List.intercalate [sep] gs := by
  cases gs <;> rfl

theorem padded_sideGroups (h : gs ≠ []) : padded (sideGroups gs) = gs := by
  unfold sideGroups
  by_cases hempty : gs = [[]]
  · simp [hempty, padded]
  · rw [if_neg (by simpa using hempty), padded_of_ne_nil h]

theorem sideGroups_padded (h : ∀ g ∈ gs, GroupText g) : sideGroups (padded gs) = gs := by
  cases gs with
  | nil => rfl
  | cons g gs =>
    have hg := (h g (List.mem_cons_self ..)).nonempty
    simp [sideGroups, padded, hg]

/-- The gap is where the first field is empty that has fields on both sides. -/
theorem splitGap_append (hhigh : high ≠ []) (htail : [] ∉ high.tail) (hlow : low ≠ []) :
    splitGap (high ++ [] :: low) = some (high, low) := by
  induction high with
  | nil => exact absurd rfl hhigh
  | cons a high ih =>
    cases high with
    | nil =>
      obtain ⟨b, low, rfl⟩ := List.exists_cons_of_ne_nil hlow
      rfl
    | cons b high =>
      have hb : b ≠ [] := fun hh => htail (by simp [hh])
      have hnext := ih (List.cons_ne_nil _ _) fun hh => htail (List.mem_cons_of_mem _ hh)
      rw [List.cons_append, List.cons_append, splitGap]
      · rw [← List.cons_append, hnext]
        rfl
      · intro b' rest hb'
        exact absurd (List.cons.inj hb').1 hb

theorem eq_of_splitGap {sides : List (List Char) × List (List Char)} (h : splitGap gs = some sides) :
    gs = sides.1 ++ [] :: sides.2 ∧ sides.1 ≠ [] ∧ sides.2 ≠ [] := by
  fun_induction splitGap gs generalizing sides with
  | case1 a b rest =>
    obtain rfl := Option.some.inj h
    simp
  | case2 a rest _ ih =>
    obtain ⟨inner, hinner, rfl⟩ := Option.map_eq_some_iff.mp h
    obtain ⟨hrest, hleft, hright⟩ := ih hinner
    exact ⟨by simp [← hrest], by simp, hright⟩
  | case3 => cases h

theorem areGroups_iff : areGroups gs = true ↔
    gs.length = 8 ∧ (∀ g ∈ gs, GroupText g) ∨
      ∃ high low, gs = padded high ++ [] :: padded low ∧ (∀ g ∈ high ++ low, GroupText g) ∧
        high.length + low.length ≤ 7 := by
  constructor
  · intro h
    cases hsplit : splitGap gs with
    | none => exact .inl (by simpa [areGroups, hsplit, isGroup_iff] using h)
    | some sides =>
      obtain ⟨hgs, hhigh, hlow⟩ := eq_of_splitGap hsplit
      refine .inr ⟨sideGroups sides.1, sideGroups sides.2, ?_, ?_⟩
      · rw [padded_sideGroups hhigh, padded_sideGroups hlow, hgs]
      · simp only [areGroups, hsplit, Bool.and_eq_true, decide_eq_true_eq, List.length_append,
          List.all_eq_true, isGroup_iff] at h
        exact ⟨h.2, h.1⟩
  · rintro (⟨hcount, hall⟩ | ⟨high, low, rfl, hall, hcount⟩)
    · have hsplit : splitGap gs = none := by
        cases hsplit : splitGap gs with
        | none => rfl
        | some sides =>
          obtain ⟨hgs, _⟩ := eq_of_splitGap hsplit
          exact absurd rfl (hall [] (by simp [hgs])).nonempty
      simpa [areGroups, hsplit, isGroup_iff] using ⟨hcount, hall⟩
    · obtain ⟨hhigh, hlow⟩ := List.forall_mem_append.mp hall
      have htail : [] ∉ (padded high).tail := by
        intro hmem
        cases high with
        | nil => simp [padded] at hmem
        | cons g high => exact absurd rfl (hhigh [] (List.mem_of_mem_tail hmem)).nonempty
      have hsplit := splitGap_append (padded_ne_nil high) htail (padded_ne_nil low)
      simp only [areGroups, hsplit, sideGroups_padded hhigh, sideGroups_padded hlow, Bool.and_eq_true,
        decide_eq_true_eq, List.length_append, List.all_eq_true, isGroup_iff]
      exact ⟨hcount, hall⟩

theorem addressGroups?_singleton_ne {last : List Char} (hlow : low ≠ []) :
    addressGroups? [last] ≠ some (high ++ [] :: low) := by
  intro h
  rw [addressGroups?] at h
  split at h
  · split at h
    · have hmem : [] ∈ [['0'], ['0']] := by
        rw [Option.some.inj h]
        simp
      simp at hmem
    · cases h
  · have hcount := congrArg List.length (Option.some.inj h)
    have hpos := List.length_pos_iff.mpr hlow
    simp only [List.length_nil, List.length_append, List.length_cons] at hcount
    omega

/-- Octets come last, so that the fields up to a gap are what they stand for. -/
theorem addressGroups?_gap {parts : List (List Char)} (hlow : low ≠ []) :
    addressGroups? parts = some (high ++ [] :: low) ↔
      ∃ rest, parts = high ++ [] :: rest ∧ rest ≠ [] ∧ addressGroups? rest = some low := by
  induction parts generalizing high with
  | nil => simp [addressGroups?]
  | cons a parts ih =>
    cases parts with
    | nil =>
      refine ⟨fun h => absurd h (addressGroups?_singleton_ne hlow), ?_⟩
      rintro ⟨rest, hparts, hrest, _⟩
      have hcount := congrArg List.length hparts
      have hpos := List.length_pos_iff.mpr hrest
      simp only [List.length_nil, List.length_append, List.length_cons] at hcount
      omega
    | cons b parts =>
      have hmap : addressGroups? (a :: b :: parts) = (addressGroups? (b :: parts)).map (a :: ·) := rfl
      rw [hmap, Option.map_eq_some_iff]
      cases high with
      | nil =>
        constructor
        · rintro ⟨low', hlow', hcons⟩
          obtain ⟨rfl, rfl⟩ := List.cons.inj hcons
          exact ⟨b :: parts, rfl, List.cons_ne_nil _ _, hlow'⟩
        · rintro ⟨rest, hparts, _, hrest⟩
          obtain ⟨rfl, rfl⟩ := List.cons.inj hparts
          exact ⟨low, hrest, rfl⟩
      | cons c high =>
        constructor
        · rintro ⟨groups, hgroups, hcons⟩
          obtain ⟨rfl, rfl⟩ := List.cons.inj hcons
          obtain ⟨rest, hparts, hrest⟩ := ih.mp hgroups
          exact ⟨rest, by rw [hparts, List.cons_append], hrest⟩
        · rintro ⟨rest, hparts, hrest⟩
          obtain ⟨rfl, hparts'⟩ := List.cons.inj hparts
          exact ⟨high ++ [] :: low, ih.mpr ⟨rest, hparts', hrest⟩, rfl⟩

theorem intercalate_append {sep : Char} (hhigh : high ≠ []) (hlow : low ≠ []) :
    List.intercalate [sep] (high ++ low) =
      List.intercalate [sep] high ++ sep :: List.intercalate [sep] low := by
  induction high with
  | nil => exact absurd rfl hhigh
  | cons a high ih =>
    cases high with
    | nil => simp [List.intercalate_cons_of_ne_nil hlow]
    | cons b high =>
      have hrest := ih (List.cons_ne_nil _ _)
      rw [List.cons_append, List.cons_append, List.intercalate_cons_cons,
        List.intercalate_cons_cons, ← List.cons_append, hrest]
      simp

/-- The text of fields with a gap between them. -/
theorem intercalate_gap (high low : List (List Char)) :
    List.intercalate [':'] (padded high ++ [] :: padded low) =
      List.intercalate [':'] high ++ ':' :: ':' :: List.intercalate [':'] low := by
  rw [intercalate_append (padded_ne_nil high) (List.cons_ne_nil _ _),
    List.intercalate_cons_of_ne_nil (padded_ne_nil low), intercalate_padded, intercalate_padded]
  rfl

theorem colon_not_mem_of_field {g : List Char} (h : GroupText g ∨ IPv4Text g) : ':' ∉ g :=
  not_mem_of_all (isAddressChar_of_field h) rfl

theorem length_le_of_addressGroups? {parts groups : List (List Char)}
    (h : addressGroups? parts = some groups) : parts.length ≤ groups.length := by
  fun_induction addressGroups? parts generalizing groups with
  | case1 => simp
  | case2 last _ _ =>
    obtain rfl := Option.some.inj h
    simp
  | case3 => cases h
  | case4 last _ =>
    obtain rfl := Option.some.inj h
    simp
  | case5 g gs _ ih =>
    obtain ⟨rest, hrest, rfl⟩ := Option.map_eq_some_iff.mp h
    simpa using ih hrest

/-- An empty field at the outer end stands for no group. -/
theorem exists_padded_iff {rest : List (List Char)} {n : Nat} (hrest : rest ≠ []) :
    (∃ groups, addressGroups? rest = some (padded groups) ∧ (∀ g ∈ groups, GroupText g) ∧
      groups.length = n) ↔ ∃ gs, rest = padded gs ∧ StandFor gs n := by
  constructor
  · rintro ⟨groups, hgroups, hall, hcount⟩
    cases groups with
    | nil =>
      have hle := length_le_of_addressGroups? hgroups
      obtain ⟨last, rfl⟩ : ∃ last, rest = [last] := by
        have hpos := List.length_pos_iff.mpr hrest
        exact List.length_eq_one_iff.mp (Nat.le_antisymm hle hpos)
      rw [addressGroups?] at hgroups
      split at hgroups
      · split at hgroups <;> cases hgroups
      · exact ⟨[], Option.some.inj hgroups, hcount ▸ .nil⟩
    | cons g groups =>
      exact ⟨rest, (padded_of_ne_nil hrest).symm,
        standFor_iff.mpr ⟨g :: groups, hgroups, hall, hcount⟩⟩
  · rintro ⟨gs, rfl, hgs⟩
    cases gs with
    | nil =>
      cases hgs
      exact ⟨[], rfl, by simp, rfl⟩
    | cons g gs =>
      obtain ⟨groups, hgroups, hall, hcount⟩ := standFor_iff.mp hgs
      have hle := length_le_of_addressGroups? hgroups
      have hne : groups ≠ [] := by
        rintro rfl
        simp at hle
      exact ⟨groups, by rw [padded_of_ne_nil hne]; exact hgroups, hall, hcount⟩

theorem colon_not_mem_of_padded (h : ∀ g ∈ gs, GroupText g ∨ IPv4Text g) :
    ∀ g ∈ padded gs, ':' ∉ g := by
  intro g hmem
  cases gs with
  | nil =>
    obtain rfl : g = [] := by simpa [padded] using hmem
    simp
  | cons g' gs => exact colon_not_mem_of_field (h g hmem)

theorem ipv6Address_iff {cs : List Char} : IPv6Address cs ↔
    3 ≤ (fields ':' cs).length ∧ (addressGroups? (fields ':' cs)).any areGroups = true := by
  simp only [Option.any_eq_true, areGroups_iff]
  constructor
  · intro h
    cases h with
    | @full gs h =>
      have hle := h.le_length
      have hne : gs ≠ [] := by
        rintro rfl
        simp at hle
      rw [fields_intercalate hne fun g hmem => colon_not_mem_of_field (h.field g hmem)]
      obtain ⟨groups, hgroups, hall, hcount⟩ := standFor_iff.mp h
      exact ⟨by omega, groups, hgroups, .inl ⟨hcount, hall⟩⟩
    | @gap high low n hhigh hlow hcount =>
      have hcolon : ∀ g ∈ padded high ++ [] :: padded low, ':' ∉ g := by
        refine List.forall_mem_append.mpr ⟨?_, List.forall_mem_cons.mpr ⟨by simp, ?_⟩⟩
        · exact colon_not_mem_of_padded fun g hmem => .inl (hhigh g hmem)
        · exact colon_not_mem_of_padded hlow.field
      obtain ⟨groups, hgroups, hall, rfl⟩ :=
        (exists_padded_iff (padded_ne_nil low)).mpr ⟨low, rfl, hlow⟩
      rw [← intercalate_gap, fields_intercalate (by simp) hcolon]
      refine ⟨?_, _, (addressGroups?_gap (padded_ne_nil groups)).mpr
        ⟨padded low, rfl, padded_ne_nil low, hgroups⟩, .inr ⟨high, groups, rfl, ?_, hcount⟩⟩
      · have hpos := List.length_pos_iff.mpr (padded_ne_nil high)
        have hpos' := List.length_pos_iff.mpr (padded_ne_nil low)
        simp only [List.length_append, List.length_cons]
        omega
      · exact List.forall_mem_append.mpr ⟨hhigh, hall⟩
  · rintro ⟨_, groups, hgroups, ⟨hcount, hall⟩ | ⟨high, low, rfl, hall, hcount⟩⟩
    · have hfull := IPv6Address.full (standFor_iff.mpr ⟨groups, hgroups, hall, hcount⟩)
      rwa [intercalate_fields] at hfull
    · obtain ⟨hhigh, hlow⟩ := List.forall_mem_append.mp hall
      obtain ⟨rest, hfields, hrest, hgroups⟩ := (addressGroups?_gap (padded_ne_nil low)).mp hgroups
      obtain ⟨gs, rfl, hgs⟩ := (exists_padded_iff hrest).mp ⟨low, hgroups, hlow, rfl⟩
      have hgap := IPv6Address.gap hhigh hgs hcount
      rwa [← intercalate_gap, ← hfields, intercalate_fields] at hgap

/-- The characters of an address that has no zone. -/
theorem IPv6Address.mem {cs : List Char} (h : IPv6Address cs) :
    ∀ c ∈ cs, (isHexDigit c || c == '.' || c == ':') = true := by
  have hfields (gs : List (List Char)) (hgs : ∀ g ∈ gs, GroupText g ∨ IPv4Text g) :
      ∀ c ∈ List.intercalate [':'] gs, (isHexDigit c || c == '.' || c == ':') = true := by
    intro c hc
    rcases mem_intercalate hc with rfl | ⟨g, hmem, hc⟩
    · rfl
    · rw [isAddressChar_of_field (hgs g hmem) c hc]
      rfl
  cases h with
  | full h => exact hfields _ h.field
  | gap hhigh hlow hcount =>
    refine List.forall_mem_append.mpr ⟨hfields _ fun g hmem => .inl (hhigh g hmem), ?_⟩
    exact List.forall_mem_cons.mpr ⟨rfl, List.forall_mem_cons.mpr ⟨rfl, hfields _ hlow.field⟩⟩

theorem isIPv6_iff {cs : List Char} : isIPv6 cs = true ↔ IPv6Text cs := by
  have hpercent {address : List Char} (h : IPv6Address address) : '%' ∉ address :=
    not_mem_of_all h.mem rfl
  constructor
  · intro h
    by_cases hmem : '%' ∈ cs
    · obtain ⟨address, zone, rfl, hno⟩ := List.eq_append_cons_of_mem hmem
      simp only [isIPv6, cut_append hno, Bool.and_eq_true, decide_eq_true_eq, isZone,
        Bool.not_eq_true', List.isEmpty_eq_false_iff, and_assoc] at h
      exact .zoned (ipv6Address_iff.mpr h.2.2) h.1 (by simpa using h.2.1)
    · simp only [isIPv6, cut_of_not_mem hmem, Bool.and_eq_true, decide_eq_true_eq, and_assoc] at h
      exact .plain (ipv6Address_iff.mpr h.2)
  · intro h
    cases h with
    | plain h =>
      simp only [isIPv6, cut_of_not_mem (hpercent h), isZone, Bool.and_eq_true, decide_eq_true_eq,
        and_assoc]
      exact ⟨trivial, ipv6Address_iff.mp h⟩
    | zoned h hne hzone =>
      simp only [isIPv6, cut_append (hpercent h), isZone, Bool.and_eq_true, decide_eq_true_eq,
        and_assoc, Bool.not_eq_true', List.isEmpty_eq_false_iff]
      exact ⟨hne, by simpa using hzone, ipv6Address_iff.mp h⟩

end Gap

section Literal

/-- A host that may stand between brackets. -/
def HostLiteral (host : List Char) : Prop := IPv6Text host ∨ FutureText host

theorem isFutureAddress_iff {cs : List Char} : isFutureAddress cs = true ↔ FutureText cs := by
  constructor
  · intro h
    unfold isFutureAddress at h
    split at h
    · rename_i rest
      by_cases hmem : '.' ∈ rest
      · obtain ⟨version, address, rfl, hno⟩ := List.eq_append_cons_of_mem hmem
        simp only [cut_append hno, Bool.and_eq_true, Bool.not_eq_true', List.isEmpty_eq_false_iff,
          List.all_eq_true, Option.any_some] at h
        exact .mk h.1.1 h.1.2 h.2
      · simp [cut_of_not_mem hmem] at h
    · cases h
  · intro h
    cases h with
    | @mk version address hversion hhex haddress =>
      have hdot : '.' ∉ version := not_mem_of_all hhex rfl
      simp only [isFutureAddress, List.cons_append, cut_append hdot, Bool.and_eq_true,
        Bool.not_eq_true', List.isEmpty_eq_false_iff, List.all_eq_true, Option.any_some]
      exact ⟨⟨hversion, hhex⟩, haddress⟩

theorem IPv6Text.head?_ne {cs : List Char} (h : IPv6Text cs) : cs.head? ≠ some 'v' := by
  have haddress {address : List Char} (h : IPv6Address address) : 'v' ∉ address :=
    not_mem_of_all h.mem rfl
  intro hhead
  cases h with
  | plain h => exact haddress h (List.mem_of_head? hhead)
  | @zoned address zone h _ _ =>
    cases address with
    | nil => simp at hhead
    | cons c address => exact haddress h (List.mem_of_head? hhead)

/-- Octets alone hold no colon. -/
theorem IPv4Text.not_isIPv6 {cs : List Char} (h : IPv4Text cs) : isIPv6 cs = false := by
  have hall : ∀ c ∈ cs, (c.isDigit || c == '.') = true := fun c hc => by
    rcases h.mem c hc with hdigit | rfl
    · simp [hdigit]
    · rfl
  have hpercent : '%' ∉ cs := not_mem_of_all hall rfl
  have hcolon : ':' ∉ cs := not_mem_of_all hall rfl
  simp [isIPv6, cut_of_not_mem hpercent, fields_of_not_mem hcolon]

theorem bracketedHostProblem?_eq_none_iff {host : List Char} :
    bracketedHostProblem? host = none ↔ HostLiteral host := by
  unfold bracketedHostProblem? HostLiteral
  rw [← isFutureAddress_iff]
  by_cases hv : host.head? = some 'v'
  · have hnone : ¬IPv6Text host := fun h => h.head?_ne hv
    rw [if_pos hv]
    cases hfuture : isFutureAddress host <;> simp [hnone]
  · have hnone : isFutureAddress host = false := by
      unfold isFutureAddress
      split
      · simp at hv
      · rfl
    rw [if_neg hv, hnone, ← isIPv6_iff]
    cases hfour : isIPv4 host with
    | true => simp [(isIPv4_iff.mp hfour).not_isIPv6]
    | false => cases hsix : isIPv6 host <;> simp

end Literal

end EditorClient
