import EditorClient.Enquiry
import Mathlib.Data.List.Forall2
import Mathlib.Data.Nat.Digits.Defs

/-! Which environments configure a bootstrap: those that say no port, or a port as an integer in decimal
digits. Any other is refused as a configuration, and says why. -/

namespace EditorClient

/-- A decimal digit of any script. Its value is how far it is from the zero of the script. -/
def IsDigit (c : Char) (d : Nat) : Prop := d < 10 ∧ ∃ first ∈ 48 :: digitZeros, c.toNat = first + d

/-- Groups of digits with single underscores between them, and the values of the digits. -/
def DigitText (cs : List Char) (ds : List Nat) : Prop :=
  ∃ groups : List (List Char), groups ≠ [] ∧ (∀ group ∈ groups, group ≠ []) ∧
    cs = List.intercalate ['_'] groups ∧ List.Forall₂ IsDigit groups.flatten ds

/-- An integer in decimal digits, with or without a sign. -/
inductive IntegerText : List Char → List Nat → Int → Prop
  | unsigned {cs : List Char} {ds : List Nat} (h : DigitText cs ds) :
      IntegerText cs ds (Nat.ofDigits 10 ds.reverse : Nat)
  | plus {cs : List Char} {ds : List Nat} (h : DigitText cs ds) :
      IntegerText ('+' :: cs) ds (Nat.ofDigits 10 ds.reverse : Nat)
  | minus {cs : List Char} {ds : List Nat} (h : DigitText cs ds) :
      IntegerText ('-' :: cs) ds (-(Nat.ofDigits 10 ds.reverse : Nat))

/-- An integer of no more digits than are read. -/
def ReadableInteger (cs : List Char) (n : Int) : Prop :=
  ∃ ds, IntegerText cs ds n ∧ ds.length ≤ digitLimit

section Digits

variable {c : Char} {d : Nat} {cs : List Char} {ds : List Nat}

/-- The digits of a script end before those of the next begin. -/
theorem find?_of_mem {firsts : List Nat} (hapart : firsts.Pairwise fun m n => m + 10 ≤ n) {first n : Nat}
    (hmem : first ∈ firsts) (hle : first ≤ n) (hlt : n < first + 10) :
    firsts.find? (fun z => z ≤ n && n < z + 10) = some first := by
  induction firsts with
  | nil => cases hmem
  | cons z rest ih =>
    obtain ⟨hz, hrest⟩ := List.pairwise_cons.mp hapart
    rcases List.mem_cons.mp hmem with rfl | hmem
    · simp [hle, hlt]
    · have hbefore := hz first hmem
      rw [List.find?_cons_of_neg (by simp; omega)]
      exact ih hrest hmem

theorem digitValue?_eq_some_iff : digitValue? c = some d ↔ IsDigit c d := by
  have hfar : ∀ first ∈ digitZeros, 128 ≤ first := by decide
  have hapart : digitZeros.Pairwise fun m n => m + 10 ≤ n := by decide
  unfold digitValue? IsDigit
  dsimp only
  generalize c.toNat = n
  by_cases hascii : n < 128
  · rw [if_pos hascii]
    constructor
    · intro h
      split at h
      · cases h
        exact ⟨by omega, 48, List.mem_cons_self .., by omega⟩
      · cases h
    · rintro ⟨hd, first, hmem, rfl⟩
      rcases List.mem_cons.mp hmem with rfl | hmem
      · rw [if_pos (by omega), Nat.add_sub_cancel_left]
      · have hlarge := hfar first hmem
        omega
  · rw [if_neg hascii]
    constructor
    · intro h
      obtain ⟨first, hfound, rfl⟩ := Option.map_eq_some_iff.mp h
      have hrange := List.find?_some hfound
      simp only [Bool.and_eq_true, decide_eq_true_eq] at hrange
      exact ⟨by omega, first, List.mem_cons_of_mem _ (List.mem_of_find?_eq_some hfound), by omega⟩
    · rintro ⟨hd, first, hmem, rfl⟩
      rcases List.mem_cons.mp hmem with rfl | hmem
      · omega
      · rw [find?_of_mem hapart hmem (by omega) (by omega), Option.map_some, Nat.add_sub_cancel_left]

theorem intercalate_cons_head (sep c : Char) (group : List Char) (groups : List (List Char)) :
    List.intercalate [sep] ((c :: group) :: groups) = c :: List.intercalate [sep] (group :: groups) := by
  cases groups <;> simp [List.intercalate_cons_cons]

/-- A text of digits begins with one. Then it ends, or an underscore comes, or the next digit. -/
theorem digitText_iff : DigitText cs ds ↔ ∃ c rest d ds', cs = c :: rest ∧ ds = d :: ds' ∧ IsDigit c d ∧
    (rest = [] ∧ ds' = [] ∨ (∃ after, rest = '_' :: after ∧ DigitText after ds') ∨ DigitText rest ds') := by
  constructor
  · rintro ⟨groups, hne, hgroups, rfl, hds⟩
    obtain ⟨group, groups, rfl⟩ := List.exists_cons_of_ne_nil hne
    obtain ⟨hgroup, hrest⟩ := List.forall_mem_cons.mp hgroups
    obtain ⟨c, group, rfl⟩ := List.exists_cons_of_ne_nil hgroup
    rw [List.flatten_cons, List.cons_append] at hds
    obtain ⟨d, ds', hc, hds', rfl⟩ := List.forall₂_cons_left_iff.mp hds
    refine ⟨c, _, d, ds', intercalate_cons_head .., rfl, hc, ?_⟩
    cases group with
    | nil =>
      cases groups with
      | nil => exact .inl ⟨by simp, by simpa using hds'⟩
      | cons next groups =>
        have hafter : DigitText (List.intercalate ['_'] (next :: groups)) ds' :=
          ⟨next :: groups, List.cons_ne_nil _ _, hrest, rfl, hds'⟩
        exact .inr (.inl ⟨_, by simp [List.intercalate_cons_cons], hafter⟩)
    | cons c' group =>
      exact .inr (.inr ⟨(c' :: group) :: groups, List.cons_ne_nil _ _,
        List.forall_mem_cons.mpr ⟨List.cons_ne_nil _ _, hrest⟩, rfl, hds'⟩)
  · rintro ⟨c, rest, d, ds', rfl, rfl, hc, ⟨rfl, rfl⟩ | ⟨after, rfl, hafter⟩ | hrest⟩
    · exact ⟨[[c]], by simp, by simp, by simp, by simpa using hc⟩
    · obtain ⟨groups, hne, hgroups, rfl, hds'⟩ := hafter
      obtain ⟨next, groups, rfl⟩ := List.exists_cons_of_ne_nil hne
      exact ⟨[c] :: next :: groups, List.cons_ne_nil _ _,
        List.forall_mem_cons.mpr ⟨List.cons_ne_nil _ _, hgroups⟩,
        by simp [List.intercalate_cons_cons], .cons hc hds'⟩
    · obtain ⟨groups, hne, hgroups, rfl, hds'⟩ := hrest
      obtain ⟨group, groups, rfl⟩ := List.exists_cons_of_ne_nil hne
      exact ⟨(c :: group) :: groups, List.cons_ne_nil _ _,
        List.forall_mem_cons.mpr ⟨List.cons_ne_nil _ _, (List.forall_mem_cons.mp hgroups).2⟩,
        (intercalate_cons_head ..).symm, .cons hc hds'⟩

theorem not_digitText_of_none (h : digitValue? c = none) : ¬DigitText (c :: cs) ds := by
  intro htext
  obtain ⟨_, _, d, _, hcs, _, hdigit, _⟩ := digitText_iff.mp htext
  rw [← (List.cons.inj hcs).1, ← digitValue?_eq_some_iff, h] at hdigit
  cases hdigit

theorem not_digitText_nil : ¬DigitText [] ds := by
  intro h
  obtain ⟨_, _, _, _, hcs, _⟩ := digitText_iff.mp h
  cases hcs

theorem digit_cons_eq_some_iff {rest : Option (List Nat)} : (do
      let d ← digitValue? c
      let ds ← rest
      pure (d :: ds)) = some ds ↔ ∃ d ds', ds = d :: ds' ∧ IsDigit c d ∧ rest = some ds' := by
  simp only [← digitValue?_eq_some_iff]
  cases digitValue? c <;> cases rest <;> simp [eq_comm]

theorem digitRun?_eq_some_iff : digitRun? cs = some ds ↔ DigitText cs ds := by
  rw [digitText_iff]
  fun_induction digitRun? cs generalizing ds with
  | case1 => simp
  | case2 c =>
    simp only [Option.map_eq_some_iff, digitValue?_eq_some_iff]
    constructor
    · rintro ⟨d, hd, rfl⟩
      exact ⟨c, [], d, [], rfl, rfl, hd, .inl ⟨rfl, rfl⟩⟩
    · rintro ⟨_, _, d, ds', ⟨⟩, rfl, hd, ⟨_, rfl⟩ | ⟨_, hnil, _⟩ | hnil⟩
      · exact ⟨d, hd, rfl⟩
      · cases hnil
      · exact absurd hnil not_digitText_nil
  | case3 c cs ih =>
    have hgap (ds' : List Nat) : ¬DigitText ('_' :: cs) ds' := not_digitText_of_none rfl
    simp only [← digitText_iff] at ih
    rw [digit_cons_eq_some_iff]
    simp [ih, hgap]
  | case4 c cs hlast hgap ih =>
    simp only [← digitText_iff] at ih
    rw [digit_cons_eq_some_iff]
    have hnil : ¬cs = [] := hlast
    have hnone : ∀ rest, ¬cs = '_' :: rest := hgap
    simp [ih, hnil, hnone]

theorem foldl_eq_ofDigits (ds : List Nat) :
    ds.foldl (fun n d => 10 * n + d) 0 = Nat.ofDigits 10 ds.reverse := by
  rw [Nat.ofDigits_eq_foldr, List.foldr_reverse]
  simp [Nat.add_comm]

theorem natural?_cast_eq_some_iff {n : Int} : (do return ((← natural? cs) : Int)) = some n ↔
    ∃ ds, DigitText cs ds ∧ ds.length ≤ digitLimit ∧ n = (Nat.ofDigits 10 ds.reverse : Nat) := by
  simp only [natural?, ← digitRun?_eq_some_iff, ← foldl_eq_ofDigits]
  cases digitRun? cs with
  | none => simp
  | some ds => by_cases hlimit : ds.length ≤ digitLimit <;> simp [hlimit, eq_comm]

/-- A text is read as an integer just if it is one, and not too long. -/
theorem integer?_eq_some_iff {n : Int} : integer? cs = some n ↔ ReadableInteger cs n := by
  have hsign {c : Char} {cs : List Char} {ds : List Nat} (hc : c = '-' ∨ c = '+') :
      ¬DigitText (c :: cs) ds :=
    not_digitText_of_none (by rcases hc with rfl | rfl <;> rfl)
  constructor
  · intro h
    unfold integer? at h
    split at h <;> obtain ⟨m, hm, rfl⟩ := Option.map_eq_some_iff.mp h <;>
      obtain ⟨ds, hds, hlimit, rfl⟩ := natural?_cast_eq_some_iff.mp hm
    · exact ⟨ds, .minus hds, hlimit⟩
    · exact ⟨ds, .plus hds, hlimit⟩
    · exact ⟨ds, .unsigned hds, hlimit⟩
  · rintro ⟨ds, h, hlimit⟩
    have hread {cs : List Char} (h : DigitText cs ds) :=
      natural?_cast_eq_some_iff.mpr ⟨ds, h, hlimit, rfl⟩
    cases h with
    | unsigned h =>
      unfold integer?
      split
      · exact absurd h (hsign (.inl rfl))
      · exact absurd h (hsign (.inr rfl))
      · exact congrArg (Option.map fun n => n) (hread h)
    | plus h => exact congrArg (Option.map fun n => n) (hread h)
    | minus h => exact congrArg (Option.map fun n => -n) (hread h)

end Digits

namespace Config

/-- The text of a variable. One that is not set is empty. -/
def Environment.text (env : Environment) (name : String) : List Char :=
  ((env.lookup name).getD "").toList

section Port

variable {env : Environment} {port : List Char} {n : Int}

theorem not_readableInteger_nil : ¬ReadableInteger [] n := by
  rw [← integer?_eq_some_iff]
  exact nofun

theorem environmentPort_eq_ok_iff (h : setting env "MFDLS_DEV_PORT" = port) :
    environmentPort env = .ok n ↔ port = [] ∧ n = standard.port ∨ ReadableInteger port n := by
  rw [environmentPort, h]
  cases port with
  | nil => simp [not_readableInteger_nil, standard, eq_comm]
  | cons c cs => cases hread : integer? (c :: cs) <;> simp [← integer?_eq_some_iff, hread]

theorem environmentPort_error (h : setting env "MFDLS_DEV_PORT" = port) {problem : ConfigurationProblem}
    (herror : environmentPort env = .error problem) :
    problem = .portNotNumber (String.ofList port) ∧ ∀ n, ¬ReadableInteger port n := by
  simp only [← integer?_eq_some_iff]
  rw [environmentPort, h] at herror
  cases port with
  | nil => cases herror
  | cons c cs =>
    cases hread : integer? (c :: cs) with
    | none => simpa [hread, eq_comm] using herror
    | some n => simp [hread] at herror

theorem checked_of_server {c : Config} (h : c.server ≠ "") : checked c =
    if 1 ≤ c.port ∧ c.port ≤ 65535 then .ok c else .error (.portOutOfRange c.port) := by
  unfold checked
  by_cases hport : 1 ≤ c.port ∧ c.port ≤ 65535
  · rw [if_neg (by omega), if_neg h, if_pos hport]
  · rw [if_pos (by omega), if_neg hport]

theorem environmentDebug_eq {debug : List Char} (h : setting env "MFDLS_DEBUG_CLIENT" = debug) :
    environmentDebug env = decide (String.ofList (lowerCase debug) ∈ ["1", "true", "yes", "on"]) := by
  rw [environmentDebug, h, List.contains_eq_mem]
  rfl

end Port

/-- An environment is accepted just if it says no port, or a number in decimal digits that is a port. Else
the configuration is at fault, and the cause is the text itself if it is no such number. -/
theorem ofEnvironment_accepts (env : Environment) {port debug : List Char}
    (hport : TrimsTo isBlank (env.text "MFDLS_DEV_PORT") port)
    (hdebug : TrimsTo isBlank (env.text "MFDLS_DEBUG_CLIENT") debug) :
    (∀ response, (Enquiry.environmentConfig env).answer = .ok response ↔
      ∃ n, (port = [] ∧ n = standard.port ∨ ReadableInteger port n) ∧ 1 ≤ n ∧ n ≤ 65535 ∧
        response = .config { standard with
          port := n, debugClient := String.ofList (lowerCase debug) ∈ ["1", "true", "yes", "on"] }) ∧
    ∀ fault, (Enquiry.environmentConfig env).answer = .error fault → fault.kind = .configuration ∧
      (fault.cause = none ↔ ∃ n, ReadableInteger port n) ∧
        ∀ cause, fault.cause = some cause → cause.kind = .value := by
  have hraw : setting env "MFDLS_DEV_PORT" = port := (trimsTo_iff.mp hport).symm
  have hanswer : (Enquiry.environmentConfig env).answer = Enquiry.ofConfig (do
      let taken ← environmentPort env
      checked { standard with
        port := taken, debugClient := String.ofList (lowerCase debug) ∈ ["1", "true", "yes", "on"] }) := by
    rw [← environmentDebug_eq (trimsTo_iff.mp hdebug).symm]
    rfl
  rw [hanswer]
  simp only [← environmentPort_eq_ok_iff hraw]
  cases htaken : environmentPort env with
  | error problem =>
    obtain ⟨rfl, hno⟩ := environmentPort_error hraw htaken
    refine ⟨fun response => iff_of_false nofun ?_, ?_⟩
    · rintro ⟨_, ⟨⟩, _⟩
    · rintro _ ⟨⟩
      exact ⟨rfl, iff_of_false nofun (not_exists.mpr hno), fun cause hcause => by cases hcause; rfl⟩
  | ok n =>
    dsimp only [Bind.bind, Except.bind]
    rw [checked_of_server (by simp [standard, serverModule])]
    by_cases hrange : 1 ≤ n ∧ n ≤ 65535
    · rw [if_pos hrange]
      refine ⟨fun response => ⟨?_, ?_⟩, nofun⟩
      · rintro ⟨⟩
        exact ⟨n, rfl, hrange.1, hrange.2, rfl⟩
      · rintro ⟨_, ⟨⟩, _, _, rfl⟩
        rfl
    · rw [if_neg hrange]
      refine ⟨fun response => iff_of_false nofun ?_, ?_⟩
      · rintro ⟨_, ⟨⟩, hlow, hhigh, _⟩
        exact hrange ⟨hlow, hhigh⟩
      · rintro _ ⟨⟩
        refine ⟨rfl, iff_of_true rfl ?_, nofun⟩
        rcases (environmentPort_eq_ok_iff hraw).mp htaken with ⟨_, rfl⟩ | hread
        · exact absurd (by decide) hrange
        · exact ⟨n, hread⟩

/-- Digits of three scripts in the first environment, and an underscore too many in the second. -/
theorem ofEnvironment_accepts_scripts :
    (Enquiry.environmentConfig [("MFDLS_DEV_PORT", "\u2003+\u0668_0\uff18\u0660\n"),
      ("MFDLS_DEBUG_CLIENT", " YES")]).answer =
        .ok (.config { standard with port := 8080, debugClient := true }) ∧
    ∃ fault, (Enquiry.environmentConfig [("MFDLS_DEV_PORT", "80__80")]).answer = .error fault ∧
      fault.kind = .configuration ∧ fault.cause ≠ none := by
  have htrims (text core : String) (h : core.toList = trim isBlank text.toList) :
      TrimsTo isBlank text.toList core.toList := trimsTo_iff.mpr h
  constructor
  · let env : Environment :=
      [("MFDLS_DEV_PORT", "\u2003+\u0668_0\uff18\u0660\n"), ("MFDLS_DEBUG_CLIENT", " YES")]
    have hport : TrimsTo isBlank (env.text "MFDLS_DEV_PORT") "+\u0668_0\uff18\u0660".toList :=
      htrims _ _ (by decide)
    have hdebug : TrimsTo isBlank (env.text "MFDLS_DEBUG_CLIENT") "YES".toList := htrims _ _ (by decide)
    have hinteger : integer? "+\u0668_0\uff18\u0660".toList = some 8080 := by decide
    have hyes : String.ofList (lowerCase "YES".toList) ∈ ["1", "true", "yes", "on"] := by decide
    refine ((ofEnvironment_accepts env hport hdebug).1 _).mpr
      ⟨8080, .inr (integer?_eq_some_iff.mp hinteger), by decide, by decide, ?_⟩
    rw [decide_eq_true hyes]
  · let env : Environment := [("MFDLS_DEV_PORT", "80__80")]
    have hport : TrimsTo isBlank (env.text "MFDLS_DEV_PORT") "80__80".toList :=
      htrims "80__80" _ (by decide)
    have hdebug : TrimsTo isBlank (env.text "MFDLS_DEBUG_CLIENT") "".toList := htrims "" _ (by decide)
    have hunread : ∀ n, ¬ReadableInteger "80__80".toList n := fun n => by
      have hnone : integer? "80__80".toList = none := by decide
      rw [← integer?_eq_some_iff, hnone]
      exact nofun
    obtain ⟨haccepted, hrefused⟩ := ofEnvironment_accepts env hport hdebug
    cases hanswer : (Enquiry.environmentConfig env).answer with
    | ok response =>
      obtain ⟨n, ⟨hempty, _⟩ | hread, _⟩ := (haccepted response).mp hanswer
      · cases hempty
      · exact absurd hread (hunread n)
    | error fault =>
      obtain ⟨hkind, hcause, _⟩ := hrefused fault hanswer
      exact ⟨fault, rfl, hkind, mt hcause.mp (not_exists.mpr hunread)⟩

end Config

end EditorClient
