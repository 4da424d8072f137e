import EditorClient.Proofs.Account
import EditorClient.Proofs.SessionRelease
import EditorClient.Proofs.SideBySide
import EditorClient.Proofs.UriSplit

/-! Which documents a session handles. A document is routed by its language and by the scheme that its URI
comes to, and there is an answer for each URI that can be split. -/

namespace EditorClient

/-- What a URI comes to: the scheme that it names in lower case, or a file. One letter names a drive. -/
inductive EffectiveScheme (uri : List Char) : List Char → Prop
  | named {scheme rest : List Char} (huri : StripsTo uri (scheme ++ ':' :: rest))
      (hscheme : SchemeText scheme) (hlong : 2 ≤ scheme.length) : EffectiveScheme uri (lowerCase scheme)
  | file (h : ∀ scheme rest, StripsTo uri (scheme ++ ':' :: rest) → SchemeText scheme → scheme.length < 2) :
      EffectiveScheme uri "file".toList

/-- A path as such: without a colon, after a drive, or with a character before the colon that no scheme
has. -/
inductive PathText : List Char → Prop
  | plain {cs : List Char} (h : ':' ∉ cs) : PathText cs
  | drive {letter : Char} (h : letter.isAlpha = true) (rest : List Char) : PathText (letter :: ':' :: rest)
  | illegal {front : List Char} (hfront : ':' ∉ front) (h : ∃ c ∈ front, isSchemeChar c = false)
      (rest : List Char) : PathText (front ++ ':' :: rest)

/-- The same URI, but for the case of its scheme. -/
def SameButCase (uri uri' : List Char) : Prop :=
  ∃ scheme scheme' rest, StripsTo uri (scheme ++ ':' :: rest) ∧ StripsTo uri' (scheme' ++ ':' :: rest) ∧
    SchemeText scheme ∧ SchemeText scheme' ∧ lowerCase scheme = lowerCase scheme'

section Scheme

variable {uri uri' cs scheme : List Char}

theorem splitScheme_of_named {rest : List Char} (huri : StripsTo uri (scheme ++ ':' :: rest))
    (h : SchemeText scheme) : splitScheme (cleanUri uri) = (lowerCase scheme, rest) := by
  rw [← stripsTo_iff.mp huri, splitScheme_of_scheme h]

theorem splitScheme_of_unnamed
    (h : ¬∃ scheme rest, StripsTo uri (scheme ++ ':' :: rest) ∧ SchemeText scheme) :
    splitScheme (cleanUri uri) = ([], cleanUri uri) :=
  splitScheme_of_bare fun scheme rest hclean hscheme =>
    h ⟨scheme, rest, stripsTo_iff.mpr hclean.symm, hscheme⟩

theorem effectiveScheme_iff : EffectiveScheme uri scheme ↔
    scheme = if (splitScheme (cleanUri uri)).1.length < 2 then "file".toList
      else (splitScheme (cleanUri uri)).1 := by
  constructor
  · intro h
    cases h with
    | named huri hscheme hlong =>
      rw [splitScheme_of_named huri hscheme, hscheme.length_lowerCase, if_neg (by omega)]
    | file h =>
      refine (if_pos ?_).symm
      by_cases hnamed : ∃ scheme rest, StripsTo uri (scheme ++ ':' :: rest) ∧ SchemeText scheme
      · obtain ⟨scheme, rest, huri, hscheme⟩ := hnamed
        rw [splitScheme_of_named huri hscheme, hscheme.length_lowerCase]
        exact h scheme rest huri hscheme
      · rw [splitScheme_of_unnamed hnamed]
        simp
  · rintro rfl
    split
    · rename_i hshort
      refine .file fun scheme rest huri hscheme => ?_
      rwa [splitScheme_of_named huri hscheme, hscheme.length_lowerCase] at hshort
    · rename_i hlong
      by_cases hnamed : ∃ scheme rest, StripsTo uri (scheme ++ ':' :: rest) ∧ SchemeText scheme
      · obtain ⟨scheme, rest, huri, hscheme⟩ := hnamed
        rw [splitScheme_of_named huri hscheme, hscheme.length_lowerCase] at hlong
        rw [splitScheme_of_named huri hscheme]
        exact .named huri hscheme (by omega)
      · rw [splitScheme_of_unnamed hnamed] at hlong
        simp at hlong

theorem PathText.effectiveScheme (h : PathText cs) (huri : StripsTo uri cs) :
    EffectiveScheme uri "file".toList := by
  have hbefore {front rest scheme rest' : List Char} (hfront : ':' ∉ front) (hscheme : SchemeText scheme)
      (heq : front ++ ':' :: rest = scheme ++ ':' :: rest') : front = scheme := by
    have hcut := congrArg (fun text => (cut ':' text).1) heq
    simpa only [cut_append hfront, cut_append hscheme.colon_not_mem] using hcut
  refine .file fun scheme rest' huri' hscheme => ?_
  have heq := (stripsTo_iff.mp huri).trans (stripsTo_iff.mp huri').symm
  cases h with
  | plain h => exact absurd (by simp [heq]) h
  | @drive letter h rest =>
    have hcolon : ':' ∉ [letter] := not_mem_of_all (by simpa using h) (by rfl : ':'.isAlpha = false)
    rw [← hbefore hcolon hscheme heq]
    exact Nat.one_lt_two
  | illegal hfront h rest =>
    obtain ⟨c, hc, hillegal⟩ := h
    rw [hbefore hfront hscheme heq] at hc
    rw [hscheme.isSchemeChar c hc] at hillegal
    cases hillegal

theorem SameButCase.uriScheme_eq (h : SameButCase uri uri') : uriScheme uri = uriScheme uri' := by
  obtain ⟨scheme, scheme', rest, huri, huri', hscheme, hscheme', hsame⟩ := h
  unfold uriScheme
  rw [splitScheme_of_named huri hscheme, splitScheme_of_named huri' hscheme', hsame]

end Scheme

section Filters

variable {uri language : String}

theorem documentScheme_eq_ok_iff {scheme : List Char} :
    documentScheme uri = .ok scheme ↔ EffectiveScheme uri.toList scheme ∧ Splits uri.toList := by
  rw [effectiveScheme_iff, documentScheme]
  cases hscheme : uriScheme uri.toList with
  | ok routed =>
    obtain ⟨rfl, hsplits⟩ := uriScheme_eq_ok_iff.mp hscheme
    simp [Except.map, hsplits, eq_comm]
  | error problem =>
    have hno : ¬Splits uri.toList := fun hsplits => by
      rw [uriScheme_eq_ok_iff.mpr ⟨rfl, hsplits⟩] at hscheme
      cases hscheme
    simp [Except.map, hno]

theorem documentScheme_of_splits (h : Splits uri.toList) : ∃ scheme, documentScheme uri = .ok scheme ∧
    ∀ scheme', EffectiveScheme uri.toList scheme' ↔ scheme' = scheme :=
  ⟨_, documentScheme_eq_ok_iff.mpr ⟨effectiveScheme_iff.mpr rfl, h⟩, fun _ => effectiveScheme_iff⟩

theorem documentScheme_of_not_splits (h : ¬Splits uri.toList) :
    ∃ problem, documentScheme uri = .error problem := by
  cases hscheme : documentScheme uri with
  | ok scheme => exact absurd (documentScheme_eq_ok_iff.mp hscheme).2 h
  | error problem => exact ⟨problem, rfl⟩

theorem SameButCase.documentScheme_eq {uri' : String} (h : SameButCase uri.toList uri'.toList) :
    documentScheme uri' = documentScheme uri := by
  rw [documentScheme, documentScheme, h.uriScheme_eq]

theorem accepts_eq (f : DocumentFilter) : f.accepts uri language = (documentScheme uri).map fun scheme =>
    decide (f.language = language ∧ f.scheme.toList = scheme) := by
  unfold DocumentFilter.accepts
  congr 1
  funext scheme
  have hscheme : String.ofList scheme = f.scheme ↔ f.scheme.toList = scheme :=
    ⟨fun h => h ▸ String.toList_ofList, fun h => h ▸ String.ofList_toList⟩
  rw [Bool.eq_iff_iff]
  simp only [Bool.and_eq_true, beq_iff_eq, decide_eq_true_eq, hscheme]
  exact ⟨fun h => ⟨h.2.symm, h.1⟩, fun h => ⟨h.2, h.1.symm⟩⟩

theorem anyFilterAccepts_of_ok {scheme : List Char} (h : documentScheme uri = .ok scheme)
    (fs : List DocumentFilter) : anyFilterAccepts uri language fs =
      .ok (fs.any fun f => f.language = language ∧ f.scheme.toList = scheme) := by
  induction fs with
  | nil => rfl
  | cons f fs ih =>
    rw [anyFilterAccepts, accepts_eq, h, ih, List.any_cons]
    dsimp only [Except.map, Bind.bind, Except.bind]
    cases decide (f.language = language ∧ f.scheme.toList = scheme) <;> rfl

theorem anyFilterAccepts_of_error {problem : UriProblem} (h : documentScheme uri = .error problem)
    (f : DocumentFilter) (fs : List DocumentFilter) :
    anyFilterAccepts uri language (f :: fs) = .error problem := by
  rw [anyFilterAccepts, DocumentFilter.accepts, h]
  rfl

end Filters

namespace Session

variable (respond : Call → Setting → Except Fault Reply × Setting)

theorem run_handles {s : Setting} {i : Nat} {x : Session} (uri language : String)
    (hx : s.world.sessions[i]? = some x) : (handles i uri language).run respond s =
      ((anyFilterAccepts uri language x.options.documents).mapError .badUri, s) := by
  have hfind : (find i).run respond s = (.ok x, s) := Procedure.run_find hx
  rw [handles, Procedure.run_bind_of_ok _ hfind]
  cases anyFilterAccepts uri language x.options.documents <;> rfl

/-- A document whose URI can be split is handled just if the session has a filter for its language and for
the scheme that the URI comes to. The case of the scheme makes no difference, and a path is a file. -/
theorem handles_iff_effectiveScheme (s : Setting) (i : Nat) (x : Session) (uri language : String)
    (hx : s.world.sessions[i]? = some x) (hsplit : ∃ scheme, uriScheme uri.toList = .ok scheme) :
    ∃ handled, (handles i uri language).run respond s = (.ok handled, s) ∧
      (handled = true ↔ ∃ f ∈ x.options.documents,
        f.language = language ∧ EffectiveScheme uri.toList f.scheme.toList) ∧
      (∀ uri' : String, SameButCase uri.toList uri'.toList →
        (handles i uri' language).run respond s = (.ok handled, s)) ∧
      ∀ cs, StripsTo uri.toList cs → PathText cs →
        (handled = true ↔ ⟨"file", language⟩ ∈ x.options.documents) := by
  obtain ⟨_, hok⟩ := hsplit
  obtain ⟨scheme, hscheme, heffective⟩ := documentScheme_of_splits (uriScheme_eq_ok_iff.mp hok).2
  have hrun (uri' : String) (h : documentScheme uri' = .ok scheme) :
      (handles i uri' language).run respond s =
        (.ok (x.options.documents.any fun f => f.language = language ∧ f.scheme.toList = scheme), s) := by
    rw [run_handles respond uri' language hx, anyFilterAccepts_of_ok h]
    rfl
  refine ⟨_, hrun uri hscheme, ?_, fun uri' hsame => hrun uri' (hsame.documentScheme_eq.trans hscheme),
    fun cs hcs hpath => ?_⟩
  · simp [heffective]
  · have hfile := (heffective _).mp (hpath.effectiveScheme hcs)
    simp only [← hfile, List.any_eq_true, decide_eq_true_eq, String.toList_inj]
    constructor
    · rintro ⟨f, hf, rfl, hfile⟩
      rwa [← hfile]
    · exact fun hmem => ⟨_, hmem, rfl, rfl⟩

/-- Blanks before the URI and capitals in its scheme do not matter. -/
theorem handles_iff_effectiveScheme_untitled :
    ((handles 0 " UNTITLED:notes" "medford").run (Call.respond (Step.leave 9 9))
      (.withSession .empty)).1 = .ok true := by
  have hsession : (Setting.withSession .empty).world.sessions[0]?.map (·.options.documents) =
      some [⟨"file", "medford"⟩, ⟨"untitled", "medford"⟩] := by decide +kernel
  obtain ⟨x, hx, hdocuments⟩ := Option.map_eq_some_iff.mp hsession
  obtain ⟨handled, hrun, hhandled, _⟩ := handles_iff_effectiveScheme (Call.respond (Step.leave 9 9))
    (.withSession .empty) 0 x " UNTITLED:notes" "medford" hx ⟨"untitled".toList, by decide⟩
  have hscheme : EffectiveScheme " UNTITLED:notes".toList "untitled".toList :=
    effectiveScheme_iff.mpr (by decide)
  rw [hrun, hhandled.mpr ⟨⟨"untitled", "medford"⟩, by simp [hdocuments], rfl, hscheme⟩]

/-- Whether a document is handled has an answer just if its URI can be split, or if the session handles
nothing at all. Where there is none the URI is refused as a value, and nothing has changed. -/
theorem handles_answers_iff (s : Setting) (i : Nat) (x : Session) (uri language : String)
    (hx : s.world.sessions[i]? = some x) :
    ((∃ handled, (handles i uri language).run respond s = (.ok handled, s)) ↔
        x.options.documents = [] ∨ Splits uri.toList) ∧
      (∀ f : DocumentFilter, (∃ accepted, f.accepts uri language = .ok accepted) ↔ Splits uri.toList) ∧
      ∀ fault s', (handles i uri language).run respond s = (.error fault, s') →
        fault.kind = .value ∧ s' = s := by
  rw [run_handles respond uri language hx]
  by_cases hsplits : Splits uri.toList
  · obtain ⟨scheme, hscheme, _⟩ := documentScheme_of_splits hsplits
    rw [anyFilterAccepts_of_ok hscheme]
    refine ⟨iff_of_true ⟨_, rfl⟩ (.inr hsplits), fun f => iff_of_true ?_ hsplits, nofun⟩
    rw [accepts_eq, hscheme]
    exact ⟨_, rfl⟩
  · obtain ⟨problem, hproblem⟩ := documentScheme_of_not_splits hsplits
    have haccepts (f : DocumentFilter) : ¬∃ accepted, f.accepts uri language = .ok accepted := by
      rw [accepts_eq, hproblem]
      exact nofun
    cases x.options.documents with
    | nil => exact ⟨iff_of_true ⟨false, rfl⟩ (.inl rfl), fun f => iff_of_false (haccepts f) hsplits, nofun⟩
    | cons f fs =>
      rw [anyFilterAccepts_of_error hproblem]
      refine ⟨iff_of_false nofun (not_or.mpr ⟨nofun, hsplits⟩),
        fun f => iff_of_false (haccepts f) hsplits, ?_⟩
      rintro _ _ ⟨⟩
      exact ⟨rfl, rfl⟩

/-- What stands between brackets must be an address. -/
theorem handles_answers_iff_of_hosts :
    let s := Setting.withSession .empty
    let answer (uri : String) := (handles 0 uri "medford").run (Call.respond (Step.leave 9 9)) s
    (∃ handled, answer "http://[::ffff:127.0.0.1]:80/a.mfd" = (.ok handled, s)) ∧
      ¬∃ handled, answer "http://[localhost]/a.mfd" = (.ok handled, s) := by
  intro s answer
  have hsession : s.world.sessions[0]?.map (·.options.documents.isEmpty) = some false := by
    decide +kernel
  obtain ⟨x, hx, hdocuments⟩ := Option.map_eq_some_iff.mp hsession
  have hanswers (uri : String) :=
    (handles_answers_iff (Call.respond (Step.leave 9 9)) s 0 x uri "medford" hx).1
  constructor
  · have hsplit : uriScheme "http://[::ffff:127.0.0.1]:80/a.mfd".toList = .ok "http".toList := by decide
    exact (hanswers _).mpr (.inr (uriScheme_eq_ok_iff.mp hsplit).2)
  · intro h
    rcases (hanswers _).mp h with hnone | hsplits
    · simp [hnone] at hdocuments
    · have hsplit := uriScheme_eq_ok_iff.mpr ⟨rfl, hsplits⟩
      revert hsplit
      decide

/-- A bracket is not closed. There is no answer, though the document is in another language than any that is
handled. -/
theorem exists_uri_without_answer :
    (⟨"file", "medford"⟩ : DocumentFilter).accepts "http://[::1" "python" = .error .brackets ∧
      ((handles 0 "http://[::1" "python").run (Call.respond (Step.leave 9 9)) (.withSession .empty)).1 =
        .error (.badUri .brackets) :=
  ⟨rfl, rfl⟩

end Session

end EditorClient
