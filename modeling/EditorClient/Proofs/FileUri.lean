import EditorClient.Proofs.GlobMatch
import EditorClient.Text.Utf8
import Mathlib.Tactic.IntervalCases

/-! The URI of a file says which file it is: reading it back gives the path's own text. -/

namespace EditorClient

def hexValue? (c : Char) : Option Nat :=
  if c.isDigit then some (c.toNat - 48)
  else if 'A' ≤ c ∧ c ≤ 'F' then some (c.toNat - 55)
  else if 'a' ≤ c ∧ c ≤ 'f' then some (c.toNat - 87)
  else none

/-- The bytes that a percent-encoded text stands for. A percent sign without two digits after it stands
for itself, like any other character. -/
def percentDecode : List Char → List UInt8
  | '%' :: high :: low :: cs =>
    match hexValue? high, hexValue? low with
    | some h, some l => UInt8.ofNat (16 * h + l) :: percentDecode cs
    | _, _ => String.utf8EncodeChar '%' ++ percentDecode (high :: low :: cs)
  | c :: cs => String.utf8EncodeChar c ++ percentDecode cs
  | [] => []

theorem hexValue?_upperHexDigit {n : Nat} (h : n < 16) : hexValue? (upperHexDigit n) = some n := by
  interval_cases n <;> decide

theorem percentDecode_percentByte (b : UInt8) (cs : List Char) :
    percentDecode (percentByte b ++ cs) = b :: percentDecode cs := by
  have hb : b.toNat < 256 := b.toNat_lt
  have hhigh := hexValue?_upperHexDigit (show b.toNat / 16 < 16 by omega)
  have hlow := hexValue?_upperHexDigit (show b.toNat % 16 < 16 by omega)
  have hvalue : 16 * (b.toNat / 16) + b.toNat % 16 = b.toNat := by omega
  simp [percentByte, percentDecode, hhigh, hlow, hvalue]

theorem percentDecode_percentBytes (bs : List UInt8) (cs : List Char) :
    percentDecode (bs.flatMap percentByte ++ cs) = bs ++ percentDecode cs := by
  induction bs with
  | nil => rfl
  | cons b bs ih =>
    rw [List.flatMap_cons, List.append_assoc, percentDecode_percentByte, ih, List.cons_append]

theorem percentDecode_cons_of_ne {c : Char} (h : c ≠ '%') (cs : List Char) :
    percentDecode (c :: cs) = String.utf8EncodeChar c ++ percentDecode cs := by
  rw [percentDecode]
  exact fun _ _ _ hc _ => h hc

theorem percentDecode_percentChar (c : Char) (cs : List Char) :
    percentDecode (percentChar c ++ cs) = String.utf8EncodeChar c ++ percentDecode cs := by
  unfold percentChar
  by_cases hplain : isPlainInUri c = true
  · have hc : c ≠ '%' := by
      rintro rfl
      revert hplain
      decide
    rw [if_pos hplain]
    exact percentDecode_cons_of_ne hc cs
  · rw [if_neg hplain]
    exact percentDecode_percentBytes _ cs

/-- Decoding gives back the bytes of the text that was encoded. -/
theorem percentDecode_percentEncode (cs : List Char) :
    percentDecode (percentEncode cs) = cs.flatMap String.utf8EncodeChar := by
  induction cs with
  | nil => rfl
  | cons c cs ih =>
    rw [percentEncode, List.flatMap_cons, percentDecode_percentChar, ← percentEncode, ih,
      List.flatMap_cons]

section Utf8

/-- The last byte of a sequence completes a character. -/
theorem readUtf8From_last {bits low high d : Nat} (hd : d < 64) (hlow : low ≤ d + 128)
    (hhigh : d + 128 ≤ high) (bs : List UInt8) :
    readUtf8From (some ⟨bits, 1, low, high⟩) (UInt8.ofNat (d + 128) :: bs) =
      Char.ofNat (bits * 64 + d) :: readUtf8From none bs := by
  have hbyte : (d + 128) % 256 = d + 128 := by omega
  have hbits : (d + 128) % 64 = d := by omega
  simp [readUtf8From, readByte, hbyte, hbits, hlow, hhigh]

theorem readUtf8From_next {bits missing low high d : Nat} (hd : d < 64) (hlow : low ≤ d + 128)
    (hhigh : d + 128 ≤ high) (bs : List UInt8) :
    readUtf8From (some ⟨bits, missing + 2, low, high⟩) (UInt8.ofNat (d + 128) :: bs) =
      readUtf8From (some ⟨bits * 64 + d, missing + 1, 0x80, 0xBF⟩) bs := by
  have hbyte : (d + 128) % 256 = d + 128 := by omega
  have hbits : (d + 128) % 64 = d := by omega
  simp [readUtf8From, readByte, hbyte, hbits, hlow, hhigh]

theorem readUtf8From_two {h : Nat} (hlow : 2 ≤ h) (hhigh : h < 32) (bs : List UInt8) :
    readUtf8From none (UInt8.ofNat (h + 192) :: bs) =
      readUtf8From (some ⟨h, 1, 0x80, 0xBF⟩) bs := by
  have hbyte : (h + 192) % 256 = h + 192 := by omega
  have hopen : openSequence (h + 192) = ([], some ⟨h, 1, 0x80, 0xBF⟩) := by
    interval_cases h <;> rfl
  simp [readUtf8From, readByte, hbyte, hopen]

theorem readUtf8From_three {h : Nat} (hhigh : h < 16) (bs : List UInt8) :
    readUtf8From none (UInt8.ofNat (h + 224) :: bs) = readUtf8From
      (some ⟨h, 2, if h = 0 then 0xA0 else 0x80, if h = 13 then 0x9F else 0xBF⟩) bs := by
  have hbyte : (h + 224) % 256 = h + 224 := by omega
  have hopen : openSequence (h + 224) =
      ([], some ⟨h, 2, if h = 0 then 0xA0 else 0x80, if h = 13 then 0x9F else 0xBF⟩) := by
    interval_cases h <;> rfl
  simp [readUtf8From, readByte, hbyte, hopen]

theorem readUtf8From_four {h : Nat} (hhigh : h < 5) (bs : List UInt8) :
    readUtf8From none (UInt8.ofNat (h + 240) :: bs) = readUtf8From
      (some ⟨h, 3, if h = 0 then 0x90 else 0x80, if h = 4 then 0x8F else 0xBF⟩) bs := by
  have hbyte : (h + 240) % 256 = h + 240 := by omega
  have hopen : openSequence (h + 240) =
      ([], some ⟨h, 3, if h = 0 then 0x90 else 0x80, if h = 4 then 0x8F else 0xBF⟩) := by
    interval_cases h <;> rfl
  simp [readUtf8From, readByte, hbyte, hopen]

/-- A character's own bytes are read as that character, whatever follows. -/
theorem readUtf8_utf8EncodeChar (c : Char) (bs : List UInt8) :
    readUtf8 (String.utf8EncodeChar c ++ bs) = c :: readUtf8 bs := by
  have hvalid : c.val.toNat < 55296 ∨ 57343 < c.val.toNat ∧ c.val.toNat < 1114112 := c.valid
  have hchar : Char.ofNat c.val.toNat = c := Char.ofNat_toNat c
  unfold readUtf8 String.utf8EncodeChar
  generalize c.val.toNat = v at hvalid hchar
  dsimp only
  by_cases hone : v ≤ 127
  · have hbyte : v % 256 = v := by omega
    have hopen : openSequence v = ([Char.ofNat v], none) := by
      rw [openSequence, if_pos (by omega)]
    rw [if_pos hone]
    simp [readUtf8From, readByte, hbyte, hopen, hchar]
  by_cases htwo : v ≤ 2047
  · have hbits : v / 64 % 32 * 64 + v % 64 = v := by omega
    rw [if_neg hone, if_pos htwo, List.cons_append, List.cons_append, List.nil_append,
      readUtf8From_two (by omega) (by omega),
      readUtf8From_last (by omega) (by omega) (by omega), hbits, hchar]
  by_cases hthree : v ≤ 65535
  · have hbits : (v / 4096 % 16 * 64 + v / 64 % 64) * 64 + v % 64 = v := by omega
    rw [if_neg hone, if_neg htwo, if_pos hthree]
    simp only [List.cons_append, List.nil_append]
    rw [readUtf8From_three (by omega), readUtf8From_next (by omega) (by split <;> omega)
      (by split <;> omega), readUtf8From_last (by omega) (by omega) (by omega), hbits, hchar]
  · have hbits : ((v / 262144 % 8 * 64 + v / 4096 % 64) * 64 + v / 64 % 64) * 64 + v % 64 = v := by
      omega
    rw [if_neg hone, if_neg htwo, if_neg hthree]
    simp only [List.cons_append, List.nil_append]
    rw [readUtf8From_four (by omega), readUtf8From_next (by omega) (by split <;> omega)
      (by split <;> omega), readUtf8From_next (by omega) (by omega) (by omega),
      readUtf8From_last (by omega) (by omega) (by omega), hbits, hchar]

theorem readUtf8_flatMap_utf8EncodeChar (cs : List Char) :
    readUtf8 (cs.flatMap String.utf8EncodeChar) = cs := by
  induction cs with
  | nil => rfl
  | cons c cs ih => rw [List.flatMap_cons, readUtf8_utf8EncodeChar, ih]

end Utf8

namespace Path

/-- The names are such as a text gives. -/
structure IsNormal (p : Path) : Prop where
  split : p.IsSplit
  names : ∀ name ∈ p.names, isName name = true

theorem isNormal_ofString (s : String) : (ofString s).IsNormal :=
  ⟨isSplit_ofString s, fun _ => isName_of_mem_ofChars⟩

theorem IsNormal.join {p q : Path} (hp : p.IsNormal) (hq : q.IsNormal) : (p.join q).IsNormal := by
  refine ⟨hp.split.join hq.split, fun name h => ?_⟩
  by_cases habs : q.isAbsolute = true
  · rw [Path.join, if_pos habs] at h
    exact hq.names name h
  · rw [join_names (by simpa using habs), List.mem_append] at h
    exact h.elim (hp.names name) (hq.names name)

variable {p q : Path}

theorem isAbsolute_join (h : p.isAbsolute = true) (q : Path) : (p.join q).isAbsolute = true := by
  by_cases hq : q.isAbsolute = true
  · rwa [Path.join, if_pos hq]
  · rwa [Path.join, if_neg hq]

theorem chars_of_absolute (h : p.isAbsolute = true) :
    p.chars = p.root.chars ++ List.intercalate ['/'] p.names := by
  obtain ⟨rest, hroot⟩ := Root.chars_of_ne_none (by simpa [isAbsolute] using h)
  simp [chars, hroot]

/-- The names of a path begin with no slash. -/
theorem IsNormal.head?_intercalate (h : p.IsNormal) :
    (List.intercalate ['/'] p.names).head? ≠ some '/' := by
  obtain ⟨root, names⟩ := p
  cases names with
  | nil => simp
  | cons name names =>
    have hslash : '/' ∉ name := h.split name (List.mem_cons_self ..)
    have hname : name ≠ [] := by
      have hh := h.names name (List.mem_cons_self ..)
      rintro rfl
      simp [isName] at hh
    obtain ⟨c, cs, rfl⟩ := List.exists_cons_of_ne_nil hname
    have hc : c ≠ '/' := fun hh => hslash (hh ▸ List.mem_cons_self ..)
    cases names with
    | nil => simpa using hc
    | cons next names => simpa [List.intercalate_cons_cons] using hc

theorem rootOf_append (r : Root) {cs : List Char} (h : cs.head? ≠ some '/') :
    rootOf (r.chars ++ cs) = r := by
  cases cs with
  | nil => cases r <;> rfl
  | cons c cs =>
    have hc : c ≠ '/' := by simpa using h
    cases r <;> simp [Root.chars, rootOf, hc]

/-- A path is read back from its root and its names. -/
theorem IsNormal.ofChars_append (h : p.IsNormal) :
    ofChars (p.root.chars ++ List.intercalate ['/'] p.names) = p := by
  have hnames : (fields '/' (List.intercalate ['/'] p.names)).filter isName = p.names := by
    by_cases hnone : p.names = []
    · rw [hnone]
      rfl
    · rw [fields_intercalate hnone h.split, List.filter_eq_self.mpr h.names]
  have hfields : (fields '/' (p.root.chars ++ List.intercalate ['/'] p.names)).filter isName =
      (fields '/' (List.intercalate ['/'] p.names)).filter isName := by
    cases p.root with
    | none => rfl
    | single => simp [Root.chars, fields, isName]
    | double => simp [Root.chars, fields, isName]
  rw [ofChars, rootOf_append p.root h.head?_intercalate, hfields, hnames]

/-- An absolute path is read back from its own text. -/
theorem IsNormal.ofChars_chars (h : p.IsNormal) (habs : p.isAbsolute = true) :
    ofChars p.chars = p := by
  rw [chars_of_absolute habs, h.ofChars_append]

/-- With neither root nor names the text is a dot, which names nothing. -/
theorem IsNormal.ofString_toString (h : p.IsNormal) : ofString p.toString = p := by
  have hread := h.ofChars_append
  rw [ofString, toString, String.toList_ofList, chars]
  split
  · rename_i hempty
    rw [hempty] at hread
    exact hread
  · exact hread

/-- The part after the scheme is the percent encoding of the path's text. -/
theorem uri_eq (p : Path) : ∃ rest, p.uri = "file://" ++ String.ofList rest ∧
    percentDecode rest = p.chars.flatMap String.utf8EncodeChar ∧
    readUtf8 (percentDecode rest) = p.chars := by
  have hbytes := percentDecode_percentEncode p.chars
  refine ⟨percentEncode p.chars, rfl, hbytes, ?_⟩
  rw [hbytes, readUtf8_flatMap_utf8EncodeChar]

theorem uri_injective (hp : p.IsNormal) (hq : q.IsNormal) (habs : p.isAbsolute = true)
    (habs' : q.isAbsolute = true) (h : p.uri = q.uri) : p = q := by
  have hencoded : percentEncode p.chars = percentEncode q.chars := by
    simpa [uri, String.append_right_inj, String.ofList_inj] using h
  have hbytes := congrArg (fun cs => readUtf8 (percentDecode cs)) hencoded
  simp only [percentDecode_percentEncode, readUtf8_flatMap_utf8EncodeChar] at hbytes
  rw [← hp.ofChars_chars habs, hbytes, hq.ofChars_chars habs']

end Path

end EditorClient
