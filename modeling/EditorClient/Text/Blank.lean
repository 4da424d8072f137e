/-! Blank characters and the removal of blanks at the ends of a text. -/

namespace EditorClient

/-- White space, the line and paragraph separators and the information separators U+001C to U+001F. -/
def isBlank (c : Char) : Bool :=
  let n := c.toNat
  if n < 128 then (9 ≤ n && n ≤ 13) || (28 ≤ n && n ≤ 32)
  else n == 0x85 || n == 0xA0 || n == 0x1680 || (0x2000 ≤ n && n ≤ 0x200A) ||
    n == 0x2028 || n == 0x2029 || n == 0x202F || n == 0x205F || n == 0x3000

def trimEnd (p : Char → Bool) (cs : List Char) : List Char :=
  (cs.reverse.dropWhile p).reverse

def trim (p : Char → Bool) (cs : List Char) : List Char := trimEnd p (cs.dropWhile p)

def strip (cs : List Char) : List Char := trim isBlank cs

section Stop

variable {p : Char → Bool} {front rest : List Char}

theorem takeWhile_stop (hfront : ∀ c ∈ front, p c = true) (hrest : ∀ c ∈ rest.head?, p c = false) :
    (front ++ rest).takeWhile p = front := by
  rw [List.takeWhile_append_of_pos hfront]
  cases rest with
  | nil => simp
  | cons c rest => simp [hrest c rfl]

theorem dropWhile_stop (hfront : ∀ c ∈ front, p c = true) (hrest : ∀ c ∈ rest.head?, p c = false) :
    (front ++ rest).dropWhile p = rest := by
  rw [List.dropWhile_append_of_pos hfront]
  cases rest with
  | nil => rfl
  | cons c rest => simp [hrest c rfl]

theorem head?_dropWhile {cs : List Char} : ∀ c ∈ (cs.dropWhile p).head?, p c = false := by
  intro c hc
  have hh := List.head?_dropWhile_not p cs
  rw [Option.mem_def.mp hc] at hh
  exact hh

end Stop

/-- What is left of a text when the characters of a sort are taken off its ends. -/
inductive TrimsTo (p : Char → Bool) : List Char → List Char → Prop
  | mk {front core back : List Char} (hfront : ∀ c ∈ front, p c = true) (hback : ∀ c ∈ back, p c = true)
      (hhead : ∀ c ∈ core.head?, p c = false) (hlast : ∀ c ∈ core.getLast?, p c = false) :
      TrimsTo p (front ++ core ++ back) core

theorem trimEnd_stop {p : Char → Bool} {core back : List Char} (hback : ∀ c ∈ back, p c = true)
    (hlast : ∀ c ∈ core.getLast?, p c = false) : trimEnd p (core ++ back) = core := by
  rw [trimEnd, List.reverse_append, dropWhile_stop (by simpa using hback) (by simpa using hlast),
    List.reverse_reverse]

theorem trimsTo_iff {p : Char → Bool} {cs core : List Char} : TrimsTo p cs core ↔ core = trim p cs := by
  constructor
  · rintro ⟨hfront, hback, hhead, hlast⟩
    rename_i front back
    rw [trim, List.append_assoc]
    cases core with
    | nil =>
      have hall : ∀ c ∈ front ++ back, p c = true := by
        simpa [or_imp, forall_and] using ⟨hfront, hback⟩
      have hdrop : ((front ++ back) ++ []).dropWhile p = [] := List.dropWhile_append_of_pos hall
      rw [List.append_nil] at hdrop
      rw [List.nil_append, hdrop]
      rfl
    | cons c core =>
      rw [dropWhile_stop hfront (by simpa using hhead), trimEnd_stop hback hlast]
  · rintro rfl
    let rest := cs.dropWhile p
    let back := (rest.reverse.takeWhile p).reverse
    have hrest : trim p cs ++ back = rest := by
      rw [trim, trimEnd, ← List.reverse_append, List.takeWhile_append_dropWhile, List.reverse_reverse]
    have hcs : cs.takeWhile p ++ trim p cs ++ back = cs := by
      rw [List.append_assoc, hrest, List.takeWhile_append_dropWhile]
    have htrims : TrimsTo p (cs.takeWhile p ++ trim p cs ++ back) (trim p cs) := by
      have hall {cs : List Char} : ∀ c ∈ cs.takeWhile p, p c = true :=
        List.all_eq_true.mp List.all_takeWhile
      refine .mk hall (fun c hc => hall c (List.mem_reverse.mp hc)) (fun c hc => ?_) fun c hc => ?_
      · have hhead : c ∈ rest.head? := by
          rw [← hrest, List.head?_append, Option.mem_def.mp hc]
          rfl
        exact head?_dropWhile c hhead
      · rw [trim, trimEnd, List.getLast?_reverse] at hc
        exact head?_dropWhile c hc
    rwa [hcs] at htrims

theorem TrimsTo.trim_eq {p : Char → Bool} {cs core : List Char} (h : TrimsTo p cs core) :
    trim p cs = core :=
  (trimsTo_iff.mp h).symm

end EditorClient
