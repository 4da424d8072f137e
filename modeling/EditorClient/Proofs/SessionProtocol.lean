import EditorClient.Proofs.SessionMoves

/-! However operations are nested, each session keeps to its protocol: it opens one connection, greets
the server once, says goodbye once and only to a server that it has greeted, and closes what it has
opened. -/

namespace EditorClient

open Procedure
open Session (Move)

namespace Chronicle

variable {i : Nat} {h h' h₀ : Chronicle}

/-- The session has not made this move. -/
def Lacks (h : Chronicle) (i : Nat) (d : Move) : Prop := ∀ m ∈ h.past, m.move? i ≠ some d

def Granted (h : Chronicle) (i : Nat) (d : Move) : Prop := ∃ m ∈ h.past, m.granted? i = some d

/-- All that the session has done is in order, and its marks tell what it has done. -/
structure Conduct (i : Nat) (h : Chronicle) : Prop where
  protocol : Session.Protocol i h.past
  closers : ∀ n w, .calls (.closeWriter n) w ∈ h.past → ∃ j, w.writer? j = some n
  fresh : ∀ d, d ≠ .fileEvent → ¬h.world.Spent i d → h.Lacks i d
  stopped : ∀ m ∈ h.past, m.world.Stopped i → h.world.Stopped i
  shown : ∀ d, h.world.Shows i d → h.Granted i d
  wired : h.world.Wired

/-- Moments have been added, but none at which the session makes a move that it was marked for. -/
structure Kept (i : Nat) (h h' : Chronicle) : Prop where
  past : ∃ more, h'.past = h.past ++ more ∧
    ∀ m ∈ more, ∀ d, h.world.Spent i d → m.move? i ≠ some d
  spent : ∀ d, h.world.Spent i d → h'.world.Spent i d

theorem Kept.refl (i : Nat) (h : Chronicle) : Kept i h h :=
  ⟨⟨[], by simp, by simp⟩, fun _ => id⟩

theorem Kept.trans {h'' : Chronicle} (hk : Kept i h h') (hk' : Kept i h' h'') : Kept i h h'' := by
  obtain ⟨more, hp, hmore⟩ := hk.past
  obtain ⟨more', hp', hmore'⟩ := hk'.past
  refine ⟨⟨more ++ more', by rw [hp', hp, List.append_assoc], fun m hm d hd => ?_⟩,
    fun d hd => hk'.spent d (hk.spent d hd)⟩
  rcases List.mem_append.mp hm with hm | hm
  · exact hmore m hm d hd
  · exact hmore' m hm d (hk.spent d hd)

theorem Granted.add {d : Move} (hd : h.Granted i d) (m : Moment) : (h.add m).Granted i d := by
  obtain ⟨m', hm, hmd⟩ := hd
  exact ⟨m', List.mem_append_left _ hm, hmd⟩

theorem Kept.granted (hk : Kept i h h') {d : Move} (hd : h.Granted i d) : h'.Granted i d := by
  obtain ⟨m, hm, hmd⟩ := hd
  obtain ⟨more, hp, _⟩ := hk.past
  exact ⟨m, hp ▸ List.mem_append_left _ hm, hmd⟩

/-- What others do during a call. -/
def Rely (i : Nat) (h h' : Chronicle) : Prop := Kept i h h' ∧ h.world.Meanwhile h'.world

theorem Conduct.change (hh : Conduct i h) {f : World → World}
    (hspent : ∀ d, h.world.Spent i d → (f h.world).Spent i d)
    (hshown : ∀ d, (f h.world).Shows i d → h.Granted i d) (hwired : (f h.world).Wired) :
    Conduct i (h.change f) where
  protocol := hh.protocol
  closers := hh.closers
  fresh := fun d hd hs => hh.fresh d hd fun hs' => hs (hspent d hs')
  stopped := fun m hm hs => hspent .stopClient (hh.stopped m hm hs)
  shown := hshown
  wired := hwired

theorem Conduct.add (hh : Conduct i h) {m : Moment} (hb : World.Bland i h.world m.world)
    (hmove : ∀ d, m.move? i = some d →
      Session.Proper i h.past m d ∧ (d ≠ .fileEvent → m.world.Spent i d))
    (hcloser : ∀ n w, m = .calls (.closeWriter n) w → ∃ j, w.writer? j = some n) :
    Conduct i (h.add m) where
  protocol := hh.protocol.snoc fun d hd => (hmove d hd).1
  closers := by
    intro n w hm
    rcases List.mem_append.mp hm with hm | hm
    · exact hh.closers n w hm
    · exact hcloser n w (List.mem_singleton.mp hm).symm
  fresh := by
    intro d hd hs m' hm' hmd
    rcases List.mem_append.mp hm' with hm' | hm'
    · exact hh.fresh d hd (fun hs' => hs (hb.spent d hs')) m' hm' hmd
    · rw [List.mem_singleton.mp hm'] at hmd
      exact hs ((hmove d hmd).2 hd)
  stopped := by
    intro m' hm' hs
    rcases List.mem_append.mp hm' with hm' | hm'
    · exact hb.spent .stopClient (hh.stopped m' hm' hs)
    · rwa [List.mem_singleton.mp hm'] at hs
  shown := by
    intro d hd
    obtain ⟨m', hm', hmd⟩ := hh.shown d (hb.shows d hd)
    exact ⟨m', List.mem_append_left _ hm', hmd⟩
  wired := hb.wired hh.wired

theorem Kept.add (hk : Kept i h₀ h) {m : Moment} (hb : World.Bland i h.world m.world)
    (hmove : ∀ d, m.move? i = some d → ¬h₀.world.Spent i d) : Kept i h₀ (h.add m) := by
  obtain ⟨more, hp, hmore⟩ := hk.past
  refine ⟨⟨more ++ [m], by rw [past_add, hp, List.append_assoc], fun m' hm' d hd hmd => ?_⟩,
    fun d hd => hb.spent d (hk.spent d hd)⟩
  rcases List.mem_append.mp hm' with hm' | hm'
  · exact hmore m' hm' d hd hmd
  · rw [List.mem_singleton.mp hm'] at hmd
    exact hmove d hmd hd

/-- What is known while a step is under way that began at a chronicle and starts this session. -/
structure Course (i : Nat) (h₀ : Chronicle) (step : Step) (x : Option Nat) (h : Chronicle) : Prop where
  conduct : Conduct i h
  kept : Kept i h₀ h
  innermost : h.world.history.innermost = some step
  starting : h.world.history.starting? = x

namespace Course

variable {step : Step} {x : Option Nat}

theorem begins (hh : Conduct i h) (step : Step) : Course i h step step.starts? (h.begins step) := by
  have hb : World.Bland i h.world (h.world.happen (.began step)) := .happen _ (by simp)
  refine ⟨hh.add hb (by simp [Moment.move?]) (by simp),
    (Kept.refl i h).add hb (by simp [Moment.move?]), ?_, ?_⟩
  · rw [Chronicle.begins, world_add, Moment.world, World.history_happen]
    rfl
  · rw [Chronicle.begins, world_add, Moment.world, World.history_happen]
    exact History.starting?_begin _ _

theorem ends (hh : Course i h₀ step x h) (answer : Answer) :
    Conduct i (h.ends step answer) ∧ Kept i h₀ (h.ends step answer) := by
  have hb : World.Bland i h.world (h.world.happen (.ended answer)) := .happen _ (by simp)
  exact ⟨hh.conduct.add hb (by simp [Moment.move?]) (by simp),
    hh.kept.add hb (by simp [Moment.move?])⟩

theorem change (hh : Course i h₀ step x h) {f : World → World}
    (hspent : ∀ d, h.world.Spent i d → (f h.world).Spent i d)
    (hshown : ∀ d, (f h.world).Shows i d → h.Granted i d) (hwired : (f h.world).Wired)
    (hhistory : (f h.world).history = h.world.history) : Course i h₀ step x (h.change f) where
  conduct := hh.conduct.change hspent hshown hwired
  kept := ⟨hh.kept.past, fun d hd => hspent d (hh.kept.spent d hd)⟩
  innermost := by rw [world_change, hhistory, hh.innermost]
  starting := by rw [world_change, hhistory, hh.starting]

/-- The session that the step starts may come to be known. -/
theorem evolve (hh : Course i h₀ step x h) {y : Option Nat} {f : World → World}
    (hb : World.Bland i h.world (f h.world))
    (hinnermost : (f h.world).history.innermost = h.world.history.innermost)
    (hstarting : (f h.world).history.starting? = y) : Course i h₀ step y (h.change f) where
  conduct := hh.conduct.change hb.spent (fun d hd => hh.conduct.shown d (hb.shows d hd))
    (hb.wired hh.conduct.wired)
  kept := ⟨hh.kept.past, fun d hd => hb.spent d (hh.kept.spent d hd)⟩
  innermost := by rw [world_change, hinnermost, hh.innermost]
  starting := hstarting

theorem bland (hh : Course i h₀ step x h) {f : World → World}
    (hb : World.Bland i h.world (f h.world)) (hhistory : (f h.world).history = h.world.history) :
    Course i h₀ step x (h.change f) :=
  hh.evolve hb (by rw [hhistory]) (by rw [hhistory, hh.starting])

theorem hold (hh : Course i h₀ step x h) (b : Nat) (controller : Option Nat) :
    Course i h₀ step x (h.change (·.hold b controller)) := by
  have hhistory : (h.world.hold b controller).history =
      h.world.history.hold (b + 1) controller.isSome := World.history_happen ..
  refine hh.evolve (.of_sessions rfl (Nat.le_refl _) ⟨[.held b controller], rfl, by simp⟩) ?_ ?_
  · rw [hhistory]
    rfl
  · rw [hhistory, History.starting?_hold, hh.starting]

/-- What is begun in between. -/
theorem anew (hh : Course i h₀ step x h) : Course i h step x h :=
  ⟨hh.conduct, .refl i h, hh.innermost, hh.starting⟩

theorem trans (hh : Course i h₀ step x h) (hh' : Course i h step x h') : Course i h₀ step x h' :=
  ⟨hh'.conduct, hh.kept.trans hh'.kept, hh'.innermost, hh'.starting⟩

theorem follows_modify (hh : Course i h₀ step x h) {j : Nat} {f : Session → Session}
    (hb : World.Bland i h.world (h.world.modifySession j f)) :
    (Session.modify j f).Follows (Conduct i) (Rely i) h fun _ h' => Course i h₀ step x h' :=
  hh.bland (f := fun w => w.modifySession j f) hb rfl

theorem relied (hh : Course i h₀ step x h) (hi : Conduct i h') (hr : Rely i h h') :
    Course i h₀ step x h' where
  conduct := hi
  kept := hh.kept.trans hr.1
  innermost := (World.innermost_of_meanwhile hr.2).trans hh.innermost
  starting := (World.starting?_of_meanwhile hr.2).trans hh.starting

theorem add (hh : Course i h₀ step x h) {m : Moment} (hb : World.Bland i h.world m.world)
    (hhistory : m.world.history = h.world.history) (hmove : ∀ d, m.move? i = some d →
      Session.Proper i h.past m d ∧ (d ≠ .fileEvent → m.world.Spent i d) ∧ ¬h₀.world.Spent i d)
    (hcloser : ∀ n w, m = .calls (.closeWriter n) w → ∃ j, w.writer? j = some n) :
    Course i h₀ step x (h.add m) where
  conduct := hh.conduct.add hb (fun d hd => ⟨(hmove d hd).1, (hmove d hd).2.1⟩) hcloser
  kept := hh.kept.add hb fun d hd => (hmove d hd).2.2
  innermost := by rw [world_add, hhistory, hh.innermost]
  starting := by rw [world_add, hhistory, hh.starting]

theorem returns (hh : Course i h₀ step x h) (c : Call) (r : Except Fault Reply) :
    Course i h₀ step x (h.returns c r) :=
  hh.add ⟨fun _ => id, fun _ => id, id⟩ rfl (by simp [Moment.move?]) (by simp)

theorem calls (hh : Course i h₀ step x h) {c : Call} (hnew : ∀ k n, c ≠ .setWriter k n)
    (hmove : ∀ d, c.move? i (h.world.happen (.called c)) = some d →
      Session.Proper i h.past (.calls c (h.world.happen (.called c))) d ∧
        (d ≠ .fileEvent → h.world.Spent i d) ∧ ¬h₀.world.Spent i d)
    (hcloser : ∀ n, c = .closeWriter n → ∃ j, h.world.writer? j = some n) :
    Course i h₀ step x (h.calls c) := by
  have hb : World.Bland i h.world (h.world.happen (.called c)) :=
    .happen _ fun k n he => hnew k n (Event.called.inj he)
  refine hh.add hb (World.history_happen ..) (fun d hd => ?_) fun n w hm => ?_
  · obtain ⟨hproper, hspent, hunspent⟩ := hmove d hd
    exact ⟨hproper, fun hne => hb.spent d (hspent hne), hunspent⟩
  · obtain ⟨rfl, rfl⟩ := Moment.calls.inj hm
    exact hcloser n rfl

/-- A call that is no move of the session and gives no connection to one. -/
theorem follows_other (hh : Course i h₀ step x h) {c : Call} (hnew : ∀ k n, c ≠ .setWriter k n)
    (hc : c.move? i (h.world.happen (.called c)) = none)
    (hcloser : ∀ n, c = .closeWriter n → ∃ j, h.world.writer? j = some n) :
    (Procedure.request c).Follows (Conduct i) (Rely i) h fun _ h' => Course i h₀ step x h' := by
  have hcalls : Course i h₀ step x (h.calls c) := hh.calls hnew (by simp [hc]) hcloser
  rw [follows_request]
  exact ⟨hcalls.conduct, fun r h' hi hr => (hcalls.relied hi hr).returns c r⟩

end Course

/-- The session is marked for a move that it has not made, and was not when the step began. -/
structure Pending (i : Nat) (h₀ : Chronicle) (d : Move) (h : Chronicle) : Prop where
  single : d ≠ .fileEvent
  unspent : ¬h₀.world.Spent i d
  spent : h.world.Spent i d
  lacks : h.Lacks i d

theorem Pending.kept {d : Move} (hp : Pending i h₀ d h) (hk : Kept i h h') : Pending i h₀ d h' := by
  obtain ⟨more, he, hmore⟩ := hk.past
  refine ⟨hp.single, hp.unspent, hk.spent d hp.spent, fun m hm => ?_⟩
  rw [he] at hm
  rcases List.mem_append.mp hm with hm | hm
  · exact hp.lacks m hm
  · exact hmore m hm d hp.spent

theorem Pending.add {d : Move} (hp : Pending i h₀ d h) {m : Moment}
    (hb : World.Bland i h.world m.world) (hm : m.move? i ≠ some d) : Pending i h₀ d (h.add m) := by
  refine ⟨hp.single, hp.unspent, hb.spent d hp.spent, fun m' hm' => ?_⟩
  rcases List.mem_append.mp hm' with hm' | hm'
  · exact hp.lacks m' hm'
  · rwa [List.mem_singleton.mp hm']

/-- Before the session is marked, all moves that the mark is for are still to be made. -/
theorem Course.pending {step : Step} {x : Option Nat} (hh : Course i h₀ step x h) {d : Move}
    (hd : d ≠ .fileEvent) (hs : ¬h.world.Spent i d) {f : World → World}
    (hf : (f h.world).Spent i d) : Pending i h₀ d (h.change f) :=
  ⟨hd, fun hs' => hs (hh.kept.spent d hs'), hf, hh.conduct.fresh d hd hs⟩

/-- What a move leaves of the moves still to be made and of those granted. -/
structure Moved (i : Nat) (h₀ : Chronicle) (d : Move) (h h' : Chronicle) : Prop where
  pending : ∀ d', d' ≠ d → Pending i h₀ d' h → Pending i h₀ d' h'
  granted : ∀ d', h.Granted i d' → h'.Granted i d'

namespace Course

variable {step : Step} {x : Option Nat}

/-- A move of the session's own. -/
theorem follows_move (hh : Course i h₀ step x h) {c : Call} {d : Move}
    (hc : c.move? i (h.world.happen (.called c)) = some d)
    (hd : Pending i h₀ d h ∨ d = .fileEvent ∧ ¬h.world.Stopped i)
    (hneeds : ∀ d', d.needs = some d' → h.Granted i d') :
    (Procedure.request c).Follows (Conduct i) (Rely i) h fun r h' =>
      Course i h₀ step x h' ∧ Moved i h₀ d h h' ∧
        ∀ reply, r = .ok reply → ∀ d', c.move? i h'.world = some d' → h'.Granted i d' := by
  have hnew : ∀ k n, c ≠ .setWriter k n := by
    rintro k n rfl
    cases hc
  have hb : World.Bland i h.world (h.world.happen (.called c)) :=
    .happen _ fun k n he => hnew k n (Event.called.inj he)
  have hwriter : ∀ n, c = .closeWriter n → h.world.writer? i = some n := by
    rintro n rfl
    by_cases hn : h.world.writer? i = some n
    · exact hn
    · have hn' : ¬(h.world.happen (.called (.closeWriter n))).writer? i = some n := hn
      simp [Call.move?, hn'] at hc
  have hlive : d = .fileEvent → ¬h.world.Stopped i := by
    intro he
    rcases hd with hd | ⟨_, hd⟩
    · exact absurd he hd.single
    · exact hd
  have hlacks : d ≠ .fileEvent → h.Lacks i d ∧ h.world.Spent i d := by
    intro hne
    rcases hd with hd | ⟨he, _⟩
    · exact ⟨hd.lacks, hd.spent⟩
    · exact absurd he hne
  have hunspent : ¬h₀.world.Spent i d := by
    rcases hd with hd | ⟨rfl, hd⟩
    · exact hd.unspent
    · exact fun hs => hd (hh.kept.spent .fileEvent hs)
  have hproper : Session.Proper i h.past (.calls c (h.world.happen (.called c))) d := by
    refine ⟨fun hne => (hlacks hne).1, hneeds, fun he m hm hs => hlive he ?_, fun n w hm => ?_⟩
    · rcases List.mem_append.mp hm with hm | hm
      · exact hh.conduct.stopped m hm hs
      · rwa [List.mem_singleton.mp hm] at hs
    · obtain ⟨rfl, rfl⟩ := Moment.calls.inj hm
      have htold := hh.conduct.wired.told i n (hwriter n rfl)
      exact ⟨List.mem_append_left _ htold, fun j hj => (hb.wired hh.conduct.wired).unique i j n
        (List.mem_append_left _ htold) hj⟩
  have hcalls : Course i h₀ step x (h.calls c) := by
    refine hh.calls hnew (fun d' hd' => ?_) fun n hn => ⟨i, hwriter n hn⟩
    rw [hc, Option.some.injEq] at hd'
    subst hd'
    exact ⟨hproper, fun hne => (hlacks hne).2, hunspent⟩
  rw [follows_request]
  refine ⟨hcalls.conduct, fun r h' hi hr => ⟨(hcalls.relied hi hr).returns c r, ⟨?_, ?_⟩, ?_⟩⟩
  · intro d' hne hp
    have hother : (Moment.calls c (h.world.happen (.called c))).move? i ≠ some d' := by
      rw [Moment.move?, hc]
      simpa using hne.symm
    exact ((hp.add (m := .calls c _) hb hother).kept hr.1).add ⟨fun _ => id, fun _ => id, id⟩
      (by simp [Moment.move?])
  · exact fun d' hg => (hr.1.granted (hg.add _)).add _
  · rintro reply rfl d' hd'
    exact ⟨_, List.mem_append_right _ (List.mem_singleton.mpr rfl), hd'⟩

end Course

theorem Moved.trans {h'' : Chronicle} {d : Move} (hm : Moved i h₀ d h h') (hk : Kept i h' h'') :
    Moved i h₀ d h h'' where
  pending := fun d' hne hp => (hm.pending d' hne hp).kept hk
  granted := fun d' hd => hk.granted (hm.granted d' hd)

theorem Moved.change {d : Move} (hm : Moved i h₀ d h h') {f : World → World}
    (hs : ∀ d, h'.world.Spent i d → (f h'.world).Spent i d) : Moved i h₀ d h (h'.change f) :=
  hm.trans ⟨⟨[], (List.append_nil _).symm, by simp⟩, hs⟩

/-- The world once a connection has been made. -/
def connected (port : Int) (w : World) : World := (countConnection w).remark (.connected port)

theorem Course.connected {step : Step} {x : Option Nat} (hh : Course i h₀ step x h) (port : Int) :
    Course i h₀ step x (h.change (connected port)) := by
  have hcount : World.Bland i h.world (countConnection h.world) :=
    .of_sessions rfl (Nat.le_succ _) ⟨[], by simp [countConnection], by simp⟩
  exact hh.bland (hcount.trans (.remark _ _)) (World.history_remark _)

/-- The session at hand is given a connection only if its opening was granted. -/
theorem Course.wires {step : Step} {x : Option Nat} (hh : Course i h₀ step x h) {j n : Nat}
    (hg : j = i → h.Granted i .opening) (hn : n ≤ h.world.connections)
    (hnew : ∀ k m, .called (.setWriter k m) ∈ h.world.trace → m < n) :
    Course i h₀ step x ((h.change (·.modifySession j fun s => { s with writer := some n })).calls
      (.setWriter j n)) := by
  have hwired : Course i h₀ step x (h.change (·.wire j n)) := by
    refine hh.change (fun d => World.spent_wire d) (fun d hd => ?_)
      (hh.conduct.wired.wire hn hnew j) (World.history_happen ..)
    rcases World.shows_wire d hd with hd | ⟨hij, rfl⟩
    · exact hh.conduct.shown d hd
    · exact hg hij
  exact hwired.add (m := .calls (.setWriter j n) (h.world.wire j n))
    ⟨fun _ => id, fun _ => id, id⟩ rfl (by simp [Moment.move?, Call.move?]) (by simp)

end Chronicle

open Chronicle

/-- What is done with a new connection of a session. -/
def Session.wiring (j n : Nat) : Procedure Unit := do
  modify j fun s => { s with writer := some n }
  let _ ← Procedure.request (.setWriter j n)
  let _ ← Procedure.request (.readLoop j n)
  modify j fun s => { s with tasks := s.tasks + 1 }

namespace Procedure

variable {α : Type}

/-- A step that does this goes on in order. -/
abbrev Proceeds (i : Nat) (h₀ : Chronicle) (step : Step) (x : Option Nat) (p : Procedure α) : Prop :=
  ∀ h, Course i h₀ step x h →
    p.Follows (Conduct i) (Rely i) h fun _ h' => Course i h₀ step x h'

variable {i : Nat} {h₀ : Chronicle} {step : Step} {x : Option Nat}

theorem Confined.proceeds {p : Procedure α} {allowed : Call → Bool} (hp : p.Confined allowed)
    (hcall : ∀ c, allowed c = true → (∀ w, w.history.starting? = x → c.move? i w = none) ∧
      (∀ n, c ≠ .closeWriter n) ∧ ∀ k n, c ≠ .setWriter k n) : p.Proceeds i h₀ step x := by
  refine hp.maintains (fun h f ha hh => hh.bland (.of_alike ha) ha.history) fun c hc h hh => ?_
  obtain ⟨hmove, hcloser, hnew⟩ := hcall c hc
  refine hh.follows_other hnew (hmove _ ?_) fun n hn => absurd hn (hcloser n)
  rw [World.history_happen]
  exact hh.starting

theorem Confined.proceeds_silent {p : Procedure α} (hp : p.Confined Call.isNone) :
    p.Proceeds i h₀ step x := hp.proceeds fun _ hc => absurd hc Bool.false_ne_true

theorem Confined.proceeds_host {p : Procedure α} (hp : p.Confined Call.isForHost) :
    p.Proceeds i h₀ step x := hp.proceeds fun c hc => by
  cases c with
  | notify | act => exact ⟨fun _ _ => rfl, by simp, by simp⟩
  | _ => cases hc

theorem follows_openSocket {inv : Chronicle → Prop} {rely : Chronicle → Chronicle → Prop}
    {h : Chronicle} {j : Nat} {host : String} {port : Int}
    {post : Except Fault Unit → Chronicle → Prop}
    (hc : (request (.connect host port)).Follows inv rely h fun r h' =>
      (∀ reply, r = .ok reply →
        (Session.wiring j (connected port h'.world).connections).Follows inv rely
          (h'.change (connected port)) post) ∧
        ∀ f, r = .error f → post (.error f) h' ∧ post (.error (.notConnected host port f))
          (h'.change (·.remark (.connectFailed host port f)))) :
    (Session.openSocket j host port).Follows inv rely h post := by
  rw [Session.openSocket, follows_bind, connect, follows_bind, follows_recoverOs]
  refine hc.mono fun r h' hpost => ?_
  obtain ⟨hok, herror⟩ := hpost
  cases r with
  | ok reply =>
    dsimp only [onOk, onError]
    rw [follows_bind, follows_change]
    dsimp only [onOk]
    rw [follows_bind, follows_ask]
    dsimp only [onOk]
    rw [follows_bind, follows_remark]
    exact hok reply rfl
  | error f => exact ⟨fun _ => (herror f rfl).2, fun _ => (herror f rfl).1⟩

end Procedure

namespace Session

variable {i j : Nat} {h h₀ : Chronicle} {step : Step} {x : Option Nat}

theorem served_of_ne (hj : j ≠ i) : Served (fun p => p.Proceeds i h₀ step x) j where
  toCompositional := maintains_compositional (.ofChronicles (Conduct i) (Rely i)) _
  silent := Confined.proceeds_silent
  call := fun r h hh => hh.follows_other (by simp) (by simp [Call.move?, hj]) (by simp)
  closeWriter := by
    intro h hh
    unfold closeWriter
    rw [follows_bind, find, follows_find]
    refine ⟨fun s hs => ?_, fun _ => hh⟩
    dsimp only [onOk]
    split
    · rename_i n hn
      have hwriter : h.world.writer? j = some n := Option.bind_eq_some_iff.mpr ⟨s, hs, hn⟩
      have hother : h.world.writer? i ≠ some n := by
        intro hi
        have hwired := hh.conduct.wired
        exact hj (hwired.unique i j n (hwired.told i n hi) (hwired.told j n hwriter))
      have hmove : (Call.closeWriter n).move? i (h.world.happen (.called (.closeWriter n))) = none :=
        if_neg hother
      rw [follows_bind]
      refine (hh.follows_other (by simp) hmove fun m hm => ⟨j, Call.closeWriter.inj hm ▸ hwriter⟩).mono
        fun r h' hh' => ?_
      cases r with
      | error f => exact hh'
      | ok reply =>
        exact hh'.follows_modify
          (.modifySession _ j (fun _ => ⟨id, id⟩) (by simp) fun hij => absurd hij hj)
    · exact hh

theorem follows_wiring (hh : Course i h₀ step x h) {n : Nat} (hg : j = i → h.Granted i .opening)
    (hn : n ≤ h.world.connections)
    (hnew : ∀ k m, .called (.setWriter k m) ∈ h.world.trace → m < n) :
    (wiring j n).Follows (Conduct i) (Rely i) h fun _ h' => Course i h₀ step x h' := by
  have hwires := hh.wires hg hn hnew
  unfold wiring
  rw [follows_bind, modify, follows_change]
  dsimp only [onOk]
  rw [follows_bind, follows_request]
  refine ⟨hwires.conduct, fun r h₁ hi hr => ?_⟩
  have hh₁ := (hwires.relied hi hr).returns (.setWriter j n) r
  cases r with
  | error f => exact hh₁
  | ok reply =>
    dsimp only [onOk]
    rw [follows_bind]
    refine (hh₁.follows_other (c := .readLoop j n) (by simp) rfl (by simp)).mono fun r h₂ hh₂ => ?_
    cases r with
    | error f => exact hh₂
    | ok reply =>
      exact hh₂.follows_modify
        (.modifySession _ j (fun _ => ⟨id, id⟩) (fun _ _ => id) fun _ _ => id)

/-- Nothing that the session has still to do is done meanwhile. -/
theorem follows_wiring_connected (hh : Course i h₀ step x h) (hg : j = i → h.Granted i .opening)
    (port : Int) : (wiring j (connected port h.world).connections).Follows (Conduct i) (Rely i)
      (h.change (connected port)) fun _ h' => Course i h₀ step x h' ∧ Kept i h h' := by
  refine (follows_wiring (hh.anew.connected port) hg (Nat.le_refl _) fun k m hm => ?_).mono
    fun _ _ hh' => ⟨hh.trans hh', hh'.kept⟩
  have hmem : .called (.setWriter k m) ∈ h.world.trace := by
    simpa [connected, World.remark, World.happen, countConnection] using hm
  exact Nat.lt_succ_of_le (hh.conduct.wired.counted k m hmem)

/-- The step has no other session to start, so that the connection is not for the one at hand. -/
theorem proceeds_openSocket_of_ne (hj : j ≠ i) (host : String) (port : Int) :
    (openSocket j host port).Proceeds i h₀ step (some j) := by
  intro h hh
  have hstarting : (h.world.happen (.called (.connect host port))).history.starting? = some j := by
    rw [World.history_happen]
    exact hh.starting
  have hmove : (Call.connect host port).move? i (h.world.happen (.called (.connect host port))) =
      none := if_neg fun hi => hj (Option.some.inj (hstarting.symm.trans hi))
  refine follows_openSocket ((hh.follows_other (by simp) hmove (by simp)).mono
    fun r h' hh' => ⟨?_, ?_⟩)
  · exact fun _ _ => (follows_wiring_connected hh' (fun hij => absurd hij hj) port).mono
      fun _ _ hpost => hpost.1
  · exact fun f _ => ⟨hh', hh'.bland (.remark _ _) (World.history_remark _)⟩

theorem proceeds_start_of_ne (hj : j ≠ i) : (start j).Proceeds i h₀ step (some j) := by
  refine (served_of_ne hj).start (proceeds_openSocket_of_ne hj) (fun h hh => ?_) fun h hh => ?_
  · exact hh.follows_modify (.modifySession _ j (fun _ => ⟨fun _ => rfl, id⟩) (fun _ _ => id)
      fun hij => absurd hij hj)
  · exact hh.follows_modify (.modifySession _ j (fun _ => ⟨id, id⟩) (fun _ _ => id)
      fun hij => absurd hij hj)

theorem proceeds_stop_of_ne (hj : j ≠ i) : (stop j).Proceeds i h₀ step x :=
  (served_of_ne hj).parting.stop fun _ hh => hh.follows_modify
    (.modifySession _ j (fun _ => ⟨id, fun _ => rfl⟩) (fun _ _ => id) fun hij => absurd hij hj)

section Own

/-- The session asks something of its client. -/
theorem follows_request_own (hh : Course i h₀ step x h) (r : Request)
    (hd : Pending i h₀ r.move h ∨ r.move = .fileEvent ∧ ¬h.world.Stopped i)
    (hneeds : ∀ d, r.move.needs = some d → h.Granted i d) :
    (request i r).Follows (Conduct i) (Rely i) h fun answer h' =>
      Course i h₀ step x h' ∧ Moved i h₀ r.move h h' ∧
        ∀ u, answer = .ok u → h'.Granted i r.move := by
  have hmove : ∀ w, (Call.client i r).move? i w = some r.move := fun _ => if_pos rfl
  unfold request
  rw [follows_bind]
  refine (hh.follows_move (hmove _) hd hneeds).mono fun answer h' hpost => ?_
  obtain ⟨hh', hm, hg⟩ := hpost
  cases answer with
  | error f => exact ⟨hh', hm, by simp⟩
  | ok reply => exact ⟨hh', hm, fun _ _ => hg reply rfl _ (hmove _)⟩

theorem follows_openTransport_own (hh : Course i h₀ step (some i) h)
    (hp : Pending i h₀ .opening h) (t : Transport) :
    (openTransport i t).Follows (Conduct i) (Rely i) h fun answer h' =>
      Course i h₀ step (some i) h' ∧ Moved i h₀ .opening h h' ∧
        ∀ u, answer = .ok u → h'.Granted i .opening := by
  cases t with
  | socket host port =>
    have hmove : ∀ w, w.history.starting? = some i →
        (Call.connect host port).move? i w = some .opening := fun w hw => if_pos hw
    have hcall := hmove (h.world.happen (.called (.connect host port))) (by
      rw [World.history_happen]
      exact hh.starting)
    refine follows_openSocket ((hh.follows_move hcall (.inl hp) fun _ hd => by cases hd).mono
      fun r h' hpost => ?_)
    obtain ⟨hh', hm, hg⟩ := hpost
    refine ⟨fun reply hr => ?_, fun f hr => ⟨?_, ?_⟩⟩
    · have hopened := hg reply hr .opening (hmove _ hh'.starting)
      exact (follows_wiring_connected hh' (fun _ => hopened) port).mono fun _ _ ⟨hh'', hk⟩ =>
        ⟨hh'', hm.trans hk, fun _ _ => hk.granted hopened⟩
    · exact ⟨hh', hm, by simp⟩
    · have hb : World.Bland i h'.world (h'.world.remark (.connectFailed host port f)) :=
        .happen _ (by simp)
      exact ⟨hh'.bland hb (World.history_remark _), hm.change hb.spent, by simp⟩
  | spawn command args directory =>
    change ((request i _).recoverOs _).Follows _ _ _ _
    rw [follows_recoverOs]
    refine (follows_request_own hh (.startServer command args directory) (.inl hp)
      fun _ hd => by cases hd).mono fun answer h' hh' => ?_
    cases answer with
    | ok u => exact hh'
    | error f => exact ⟨fun _ => ⟨hh'.1, hh'.2.1, by simp⟩, fun _ => hh'⟩
  | foreign v => exact ⟨hh, ⟨fun _ _ => id, fun _ => id⟩, by simp⟩

theorem follows_handshake_own (hh : Course i h₀ step x h) (hbegin : Pending i h₀ .beginHandshake h)
    (hfinish : Pending i h₀ .finishHandshake h) (hopened : h.Granted i .opening) (name : Value) :
    (handshake i name).Follows (Conduct i) (Rely i) h fun answer h' =>
      Course i h₀ step x h' ∧ ∀ u, answer = .ok u → h'.Granted i .finishHandshake := by
  unfold handshake
  rw [follows_recoverOrdinary, follows_bind]
  refine (follows_request_own hh .beginHandshake (.inl hbegin) ?_).mono
    fun answer h₁ hpost => ?_
  · rintro d ⟨⟩
    exact hopened
  obtain ⟨hh₁, hm, hg⟩ := hpost
  cases answer with
  | error f => exact ⟨fun _ => ⟨hh₁, by simp⟩, fun _ => ⟨hh₁, by simp⟩⟩
  | ok u =>
    refine (follows_request_own hh₁ .finishHandshake (.inl (hm.pending _ (by decide) hfinish)) ?_).mono
      fun answer h₂ hpost => ?_
    · rintro d ⟨⟩
      exact hg u rfl
    obtain ⟨hh₂, _, hg₂⟩ := hpost
    cases answer with
    | error f => exact ⟨fun _ => ⟨hh₂, by simp⟩, fun _ => ⟨hh₂, by simp⟩⟩
    | ok u => exact ⟨hh₂, hg₂⟩

theorem course_markStarted (hh : Course i h₀ step x h) {s : Session}
    (hs : h.world.sessions[i]? = some s) (hfresh : s.started = false) {h₁ : Chronicle}
    (h₁_eq : h₁ = h.change fun w => w.modifySession i fun s => { s with started := true }) :
    Course i h₀ step x h₁ ∧ ∀ d, d.isGreeting = true → Pending i h₀ d h₁ := by
  subst h₁_eq
  have hunspent : ¬h.world.HasStarted i := by
    rintro ⟨y, hy, hstart⟩
    rw [hs, Option.some.injEq] at hy
    rw [← hy, hfresh] at hstart
    cases hstart
  have hmarked : (h.world.modifySession i fun s => { s with started := true }).HasStarted i :=
    ⟨_, getElem?_modify_self _ hs, rfl⟩
  refine ⟨hh.bland (.modifySession _ i (fun _ => ⟨fun _ => rfl, id⟩) (fun _ _ => id)
    fun _ _ => id) rfl, fun d hd => hh.pending (fun he => by simp [he, Move.isGreeting] at hd)
      (fun hs => hunspent ((World.spent_of_isGreeting hd).mp hs))
      ((World.spent_of_isGreeting hd).mpr hmarked)⟩

theorem course_markInitialized (hh : Course i h₀ step x h) (hg : h.Granted i .finishHandshake) :
    Course i h₀ step x
      (h.change fun w => w.modifySession i fun s => { s with initialized := true }) := by
  refine hh.change ?_ ?_ ?_ rfl
  · refine World.spent_of_sessions fun y hy => ⟨_, getElem?_modify_self _ hy, ?_⟩
    exact ⟨id, id⟩
  · intro d hd
    cases d with
    | opening =>
      obtain ⟨n, hn⟩ := hd
      exact hh.conduct.shown .opening ⟨n, World.writer?_modifySession
        (f := fun s => { s with initialized := true }) (fun _ _ => id) hn⟩
    | finishHandshake => exact hg
    | _ => exact absurd hd id
  · exact hh.conduct.wired.of_writers (fun _ _ => World.writer?_modifySession fun _ _ => id)
      (Nat.le_refl _) ⟨[], by simp [World.modifySession], by simp⟩

/-- The session is started only once, so that all moves of a start are still to be made. -/
theorem proceeds_start_own : (start i).Proceeds i h₀ step (some i) := by
  intro h hh
  unfold start
  rw [follows_bind, find, follows_find]
  refine ⟨fun s hs => ?_, fun _ => hh⟩
  dsimp only [onOk]
  split
  · exact hh
  rename_i hguard
  simp only [Bool.or_eq_true, not_or, Bool.not_eq_true] at hguard
  rw [follows_bind, modify, follows_change]
  dsimp only [onOk]
  obtain ⟨hstarted, hpending⟩ := course_markStarted hh hs hguard.1 rfl
  rw [follows_bind]
  refine (follows_openTransport_own hstarted (hpending .opening rfl) _).mono
    fun answer h₁ hpost => ?_
  obtain ⟨hh₁, hm, hg⟩ := hpost
  cases answer with
  | error f => exact hh₁
  | ok u =>
    dsimp only [onOk]
    rw [follows_bind]
    have hbegin := hm.pending _ (by decide) (hpending .beginHandshake rfl)
    have hfinish := hm.pending _ (by decide) (hpending .finishHandshake rfl)
    refine (follows_handshake_own hh₁ hbegin hfinish (hg u rfl) _).mono
      fun answer h₂ hpost => ?_
    obtain ⟨hh₂, hg₂⟩ := hpost
    cases answer with
    | error f => exact hh₂
    | ok u =>
      dsimp only [onOk]
      rw [follows_bind, modify, follows_change]
      exact (confined_post _).proceeds_silent _ (course_markInitialized hh₂ (hg₂ u rfl))

theorem course_markStopped (hh : Course i h₀ step x h) {s : Session}
    (hs : h.world.sessions[i]? = some s) (hlive : s.stopped = false) {h₁ : Chronicle}
    (h₁_eq : h₁ = h.change fun w => w.modifySession i fun s => { s with stopped := true }) :
    Course i h₀ step x h₁ ∧ ∀ d, d.isParting = true → Pending i h₀ d h₁ := by
  subst h₁_eq
  have hunspent : ¬h.world.Stopped i := by
    rintro ⟨y, hy, hstop⟩
    rw [hs, Option.some.injEq] at hy
    rw [← hy, hlive] at hstop
    cases hstop
  have hmarked : (h.world.modifySession i fun s => { s with stopped := true }).Stopped i :=
    ⟨_, getElem?_modify_self _ hs, rfl⟩
  refine ⟨hh.bland (.modifySession _ i (fun _ => ⟨id, fun _ => rfl⟩) (fun _ _ => id)
    fun _ _ => id) rfl, fun d hd => hh.pending (fun he => by simp [he, Move.isParting] at hd)
      (fun hs => hunspent ((World.spent_of_isParting hd).mp hs))
      ((World.spent_of_isParting hd).mpr hmarked)⟩

/-- Whatever becomes of it, only the shutdown and the exit have been made by then. -/
theorem follows_shutDown_own (hh : Course i h₀ step x h) (hshut : Pending i h₀ .shutdown h)
    (hexit : Pending i h₀ .exit h) (hgreeted : h.Granted i .finishHandshake) (name : Value) :
    (shutDown i name).Follows (Conduct i) (Rely i) h fun _ h' => Course i h₀ step x h' ∧
      ∀ d, d ≠ .shutdown → d ≠ .exit → Pending i h₀ d h → Pending i h₀ d h' := by
  have hremark : ∀ h' f, Course i h₀ step x h' →
      Course i h₀ step x (h'.change (·.remark (.shutdownFailed name f))) :=
    fun h' f hh' => hh'.bland (.remark _ _) (World.history_remark _)
  have hmoved : ∀ {d h h'} f, Moved i h₀ d h h' →
      Moved i h₀ d h (h'.change (·.remark (.shutdownFailed name f))) := fun f hm =>
    hm.change (World.Bland.remark _ (.shutdownFailed name f)).spent
  unfold shutDown
  rw [follows_recoverOrdinary, follows_bind]
  refine (follows_request_own hh .shutdown (.inl hshut) ?_).mono fun answer h₁ hpost => ?_
  · rintro d ⟨⟩
    exact hgreeted
  obtain ⟨hh₁, hm, hg⟩ := hpost
  cases answer with
  | error f =>
    exact ⟨fun _ => ⟨hremark h₁ f hh₁, fun d hd _ => (hmoved f hm).pending d hd⟩,
      fun _ => ⟨hh₁, fun d hd _ => hm.pending d hd⟩⟩
  | ok u =>
    refine (follows_request_own hh₁ .exit (.inl (hm.pending _ (by decide) hexit)) ?_).mono
      fun answer h₂ hpost => ?_
    · rintro d ⟨⟩
      exact hg u rfl
    obtain ⟨hh₂, hm₂, _⟩ := hpost
    cases answer with
    | error f =>
      exact ⟨fun _ => ⟨hremark h₂ f hh₂,
          fun d hd hd' hp => (hmoved f hm₂).pending d hd' (hm.pending d hd hp)⟩,
        fun _ => ⟨hh₂, fun d hd hd' hp => hm₂.pending d hd' (hm.pending d hd hp)⟩⟩
    | ok u => exact ⟨hh₂, fun d hd hd' hp => hm₂.pending d hd' (hm.pending d hd hp)⟩

theorem follows_closeWriter_own (hh : Course i h₀ step x h) (hclose : Pending i h₀ .closing h) :
    (closeWriter i).Follows (Conduct i) (Rely i) h fun _ h' => Course i h₀ step x h' ∧
      ∀ d, d ≠ .closing → Pending i h₀ d h → Pending i h₀ d h' := by
  unfold closeWriter
  rw [follows_bind, find, follows_find]
  refine ⟨fun s hs => ?_, fun _ => ⟨hh, fun _ _ => id⟩⟩
  dsimp only [onOk]
  split
  · rename_i n hn
    have hwriter : h.world.writer? i = some n := Option.bind_eq_some_iff.mpr ⟨s, hs, hn⟩
    have hmove : (Call.closeWriter n).move? i (h.world.happen (.called (.closeWriter n))) =
        some .closing := if_pos hwriter
    rw [follows_bind]
    refine (hh.follows_move hmove (.inl hclose) ?_).mono fun r h' hpost => ?_
    · rintro d ⟨⟩
      exact hh.conduct.shown .opening ⟨n, hwriter⟩
    obtain ⟨hh', hm, _⟩ := hpost
    cases r with
    | error f => exact ⟨hh', fun d hd => hm.pending d hd⟩
    | ok reply =>
      have hb : World.Bland i h'.world
          (h'.world.modifySession i fun s => { s with writer := none }) :=
        .modifySession _ i (fun _ => ⟨id, id⟩) (by simp) fun _ _ => id
      have hm' : Moved i h₀ .closing h
          (h'.change fun w => w.modifySession i fun s => { s with writer := none }) :=
        hm.change hb.spent
      exact ⟨hh'.follows_modify hb, fun d hd => hm'.pending d hd⟩
  · exact ⟨hh, fun _ _ => id⟩

/-- The session is stopped only once, so that all moves of a stop are still to be made. -/
theorem proceeds_stop_own : (stop i).Proceeds i h₀ step x := by
  have hrelease : ∀ h p, Course i h₀ step x h → Pending i h₀ .closing h →
      Pending i h₀ .stopClient h → (do
        closeWriter i
        request i (.stop (← find i).tasks)
        Procedure.post p : Procedure Unit).Follows (Conduct i) (Rely i) h
          fun _ h' => Course i h₀ step x h' := by
    intro h p hh hclose hstop
    rw [follows_bind]
    refine (follows_closeWriter_own hh hclose).mono fun answer h₁ hpost => ?_
    obtain ⟨hh₁, hp⟩ := hpost
    cases answer with
    | error f => exact hh₁
    | ok u =>
      dsimp only [onOk]
      rw [follows_bind, find, follows_find]
      refine ⟨fun s _ => ?_, fun _ => hh₁⟩
      dsimp only [onOk]
      rw [follows_bind]
      refine (follows_request_own hh₁ (.stop s.tasks) (.inl (hp .stopClient (by decide) hstop))
        fun _ hd => by cases hd).mono fun answer h₂ hpost => ?_
      obtain ⟨hh₂, _⟩ := hpost
      cases answer with
      | error f => exact hh₂
      | ok u => exact (confined_post p).proceeds_silent _ hh₂
  intro h hh
  unfold stop
  rw [follows_bind, find, follows_find]
  refine ⟨fun s hs => ?_, fun _ => hh⟩
  dsimp only [onOk]
  split
  · exact hh
  rename_i hlive
  rw [follows_bind, modify, follows_change]
  dsimp only [onOk]
  obtain ⟨hstopped, hpending⟩ := course_markStopped hh hs (Bool.not_eq_true _ ▸ hlive) rfl
  split
  · rename_i hinit
    rw [follows_bind]
    refine (follows_shutDown_own hstopped (hpending _ rfl) (hpending _ rfl) ?_ s.name).mono
      fun answer h₁ hpost => ?_
    · exact hh.conduct.shown .finishHandshake ⟨s, hs, hinit⟩
    obtain ⟨hh₁, hp⟩ := hpost
    cases answer with
    | error f => exact hh₁
    | ok u =>
      exact hrelease h₁ _ hh₁ (hp _ (by decide) (by decide) (hpending _ rfl))
        (hp _ (by decide) (by decide) (hpending _ rfl))
  · exact hrelease _ _ hstopped (hpending _ rfl) (hpending _ rfl)

/-- Only a session that runs is told of a change. -/
theorem proceeds_changeFile_own (path : Path) (change : Int) :
    (changeFile i path change).Proceeds i h₀ step x := by
  intro h hh
  unfold changeFile
  rw [follows_bind, find, follows_find]
  refine ⟨fun s hs => ?_, fun _ => hh⟩
  dsimp only [onOk]
  rw [follows_bind, follows_ofExcept]
  cases isWatched path s.options.watchGlobs with
  | error f => exact hh
  | ok watched =>
    dsimp only [onOk]
    split
    · split
      · rename_i hrun
        simp only [isRunning, Bool.and_eq_true, Bool.not_eq_true'] at hrun
        have hlive : ¬h.world.Stopped i := by
          rintro ⟨y, hy, hstop⟩
          rw [hs, Option.some.injEq] at hy
          rw [← hy, hrun.2] at hstop
          cases hstop
        rw [follows_bind, follows_ask]
        dsimp only [onOk]
        rw [follows_bind, follows_ofExcept]
        cases fileUri h.world.workingDirectory path with
        | error f => exact hh
        | ok uri =>
          dsimp only [onOk]
          rw [follows_bind]
          refine (follows_request_own hh (.fileEvent uri change) (.inr ⟨rfl, hlive⟩) ?_).mono
            fun answer h' hpost => ?_
          · rintro d ⟨⟩
            exact hh.conduct.shown .finishHandshake ⟨s, hs, hrun.1⟩
          obtain ⟨hh', _⟩ := hpost
          cases answer with
          | error f => exact hh'
          | ok u => exact hh'
      · rw [follows_bind, follows_remark]
        exact hh.bland (.remark _ _) (World.history_remark _)
    · exact hh

end Own

theorem proceeds_start (j : Nat) : (start j).Proceeds i h₀ step (some j) := by
  by_cases hj : j = i
  · subst hj
    exact proceeds_start_own
  · exact proceeds_start_of_ne hj

theorem proceeds_stop (j : Nat) : (stop j).Proceeds i h₀ step x := by
  by_cases hj : j = i
  · subst hj
    exact proceeds_stop_own
  · exact proceeds_stop_of_ne hj

theorem proceeds_changeFile (j : Nat) (path : Path) (change : Int) :
    (changeFile j path change).Proceeds i h₀ step x := by
  by_cases hj : j = i
  · subst hj
    exact proceeds_changeFile_own path change
  · exact (served_of_ne hj).changeFile path change

end Session

section Steps

variable {i : Nat} {h h₀ : Chronicle} {step : Step} {x : Option Nat}

theorem proceeds_handling : Handling fun p => p.Proceeds i h₀ step x where
  toCompositional := maintains_compositional (.ofChronicles (Conduct i) (Rely i)) _
  confined := Confined.proceeds_host
  apart := by
    intro f hf h hh
    obtain ⟨hs, ht, hc⟩ := hf h.world
    refine hh.bland (.of_sessions hs (Nat.le_of_eq hc.symm) ⟨[], by simp [ht], by simp⟩) ?_
    rw [World.history, ht, World.history]
  hold := fun b controller _ hh => hh.hold b controller
  stop := Session.proceeds_stop

/-- A call that is for no session while none is being started. -/
def Call.isFree : Call → Bool
  | process _ | makeClient _ | connect .. | notify _ => true
  | _ => false

theorem Procedure.Confined.proceeds_free {α : Type} {p : Procedure α}
    (hp : p.Confined Call.isFree) : p.Proceeds i h₀ step none := hp.proceeds fun c hc => by
  cases c with
  | process | makeClient | notify => exact ⟨fun _ _ => rfl, by simp, by simp⟩
  | connect => exact ⟨fun w hw => by simp [Call.move?, hw], by simp, by simp⟩
  | _ => cases hc

/-- An activation starts the session that it has made. -/
theorem follows_newSession (hh : Course i h₀ step none h) (name : Value) (transport : Transport)
    (options : SessionOptions) :
    (newSession name transport options).Follows (Conduct i) (Rely i) h fun r h' =>
      (∀ f, r = .error f → Course i h₀ step none h') ∧
        ∀ j, r = .ok j → Course i h₀ step (step.startsMade j) h' := by
  unfold newSession
  rw [follows_bind]
  refine ((confined_openChannel _).proceeds_silent h hh).mono fun r h₁ hh₁ => ?_
  cases r with
  | error f => exact ⟨fun _ _ => hh₁, by simp⟩
  | ok slug =>
    dsimp only [onOk]
    rw [follows_bind]
    have hmakes : (Procedure.request (.makeClient slug)).Confined Call.isFree := confined_request rfl
    refine (hmakes.proceeds_free h₁ hh₁).mono fun r h₂ hh₂ => ?_
    cases r with
    | error f => exact ⟨fun _ _ => hh₂, by simp⟩
    | ok reply =>
      simp only [onOk, follows_bind, follows_ask, follows_change, follows_happen, follows_pure]
      refine ⟨by simp, fun j hj => ?_⟩
      obtain rfl := Except.ok.inj hj
      have hadded := hh₂.bland (f := addSession ⟨name, transport, options, slug, none, false, false,
        false, 0⟩) (.addSession _ rfl rfl) rfl
      exact hadded.evolve (.happen _ (by simp)) (World.innermost_madeClient _ _)
        (World.starting?_madeClient _ _ hadded.innermost hadded.starting)

theorem follows_buildSession (hh : Course i h₀ step none h) (transport : Transport)
    (options : SessionOptions) :
    (buildSession transport options).Follows (Conduct i) (Rely i) h fun r h' =>
      (∀ f, r = .error f → Course i h₀ step none h') ∧
        ∀ j, r = .ok j → Course i h₀ step (step.startsMade j) h' := by
  unfold buildSession
  rw [follows_bind, follows_ofExcept]
  cases transportNames transport with
  | error f => exact ⟨fun _ _ => hh, by simp⟩
  | ok names =>
    have hremarked : Course i h₀ step none
        (h.change (·.remark (.buildingSession names.1 names.2))) :=
      hh.bland (.remark _ _) (World.history_remark _)
    simp only [onOk, follows_bind, follows_remark]
    exact follows_newSession hremarked _ _ _

theorem follows_activate {bootstrap context : Int}
    (hh : Course i h₀ (.activate bootstrap context) none h) (b c : Nat) :
    (Bootstrap.activate b c).Follows (Conduct i) (Rely i) h fun _ h' =>
      ∃ x, Course i h₀ (.activate bootstrap context) x h' := by
  have hprepare : ∀ config y path, (Bootstrap.reporting (Bootstrap.prepare config y path)).Proceeds
      i h₀ (.activate bootstrap context) none := fun config y path =>
    have h := confined_preparing (fun _ => rfl) fun _ => rfl
    Confined.proceeds_free (h.reporting (h.prepare config y path))
  unfold Bootstrap.activate
  rw [follows_bind, Bootstrap.find, follows_find]
  refine ⟨fun bs _ => ?_, fun _ => ⟨_, hh⟩⟩
  dsimp only [onOk]
  rw [follows_bind, Context.find, follows_find]
  refine ⟨fun y _ => ?_, fun _ => ⟨_, hh⟩⟩
  dsimp only [onOk]
  split
  · exact ⟨_, hh⟩
  rename_i path _
  rw [follows_bind]
  refine (proceeds_handling.remark _ h hh).mono fun r h₁ hh₁ => ?_
  cases r with
  | error f => exact ⟨_, hh₁⟩
  | ok u =>
    dsimp only [onOk]
    rw [follows_bind]
    refine (hprepare _ _ _ h₁ hh₁).mono fun r h₂ hh₂ => ?_
    cases r with
    | error f => exact ⟨_, hh₂⟩
    | ok transport =>
      dsimp only [onOk]
      rw [follows_bind]
      refine (proceeds_handling.replacePrevious b h₂ hh₂).mono fun r h₃ hh₃ => ?_
      cases r with
      | error f => exact ⟨_, hh₃⟩
      | ok u =>
        dsimp only [onOk]
        rw [follows_bind]
        refine (follows_buildSession hh₃ _ _).mono fun r h₄ hpost => ?_
        obtain ⟨herror, hok⟩ := hpost
        cases r with
        | error f => exact ⟨_, herror f rfl⟩
        | ok session =>
          have hh₄ : Course i h₀ _ (some session) h₄ := hok session rfl
          exact (proceeds_handling.startNew (Session.proceeds_start session) y.notifier b c h₄
            hh₄).mono fun _ h₅ hh₅ => ⟨_, hh₅⟩

theorem follows_procedure (limit : Nat) (step : Step) (hh : Conduct i h) :
    (step.procedure limit).Follows (Conduct i) (Rely i) (h.begins step) fun _ h' =>
      ∃ x, Course i h step x h' := by
  have hbegun := Course.begins hh step
  have hdone : ∀ {p : Procedure Response} {x}, step.starts? = x → p.Proceeds i h step x →
      p.Follows (Conduct i) (Rely i) (h.begins step) fun _ h' => ∃ x, Course i h step x h' :=
    fun hx hp => (hp _ (hx ▸ hbegun)).mono fun _ h' hh' => ⟨_, hh'⟩
  by_cases hquiet : step.isQuiet = true
  · refine hdone (x := none) ?_ (confined_procedure (fun _ => rfl) (fun _ => rfl) limit hquiet
      fun _ _ _ => rfl).proceeds_free
    cases step <;> simp_all [Step.isQuiet, Step.starts?]
  by_cases hhandling : step.isHandling = true
  · exact hdone rfl (proceeds_handling.procedure limit hhandling)
  have hindex : ∀ {sort : ObjectSort} {β : Type} {objects : World → List β} {number : Int}
      {k : Nat → Procedure Response}, (∀ j : Nat, number = j + 1 → (k j).Follows (Conduct i) (Rely i)
        (h.begins step) fun _ h' => ∃ x, Course i h step x h') →
      (index sort objects number >>= k).Follows (Conduct i) (Rely i) (h.begins step) fun _ h' =>
        ∃ x, Course i h step x h' := fun hk => by
    rw [follows_bind]
    exact follows_index _ _ _ _ (fun j hj => hk j hj) ⟨_, hbegun⟩
  cases step with
  | activate bootstrap context =>
    refine hindex fun b _ => hindex fun c _ => ?_
    rw [follows_bind]
    refine (follows_activate hbegun b c).mono fun r h' hh' => ?_
    cases r with
    | error f => exact hh'
    | ok k => exact hh'
  | startController controller session context =>
    refine hindex fun k _ => hindex fun j hj => hindex fun c _ => hdone (x := some j) ?_
      (proceeds_handling.bind (proceeds_handling.startController (Session.proceeds_start j) k c)
        fun _ => proceeds_handling.pure _)
    rw [Step.starts?, hj, if_pos (by omega), Int.toNat_natCast_add_one, Nat.add_sub_cancel]
  | startSession session =>
    refine hindex fun j hj => hdone (x := some j) ?_ (proceeds_handling.bind
      (Session.proceeds_start j) fun _ => proceeds_handling.pure _)
    rw [Step.starts?, hj, if_pos (by omega), Int.toNat_natCast_add_one, Nat.add_sub_cancel]
  | buildSession transport options =>
    rw [Step.procedure, follows_bind]
    refine (follows_buildSession hbegun _ _).mono fun r h' hpost => ?_
    obtain ⟨herror, hok⟩ := hpost
    cases r with
    | error f => exact ⟨_, herror f rfl⟩
    | ok j => exact (proceeds_handling.sessionMade j h' (hok j rfl)).mono fun _ _ hh' => ⟨_, hh'⟩
  | newSession name transport options =>
    rw [Step.procedure, follows_bind]
    refine (follows_newSession hbegun _ _ _).mono fun r h' hpost => ?_
    obtain ⟨herror, hok⟩ := hpost
    cases r with
    | error f => exact ⟨_, herror f rfl⟩
    | ok j => exact (proceeds_handling.sessionMade j h' (hok j rfl)).mono fun _ _ hh' => ⟨_, hh'⟩
  | changeFile session path change =>
    rw [Step.procedure]
    split
    · exact hindex fun j _ => hdone rfl (proceeds_handling.bind
        (Session.proceeds_changeFile j path change) fun _ => proceeds_handling.pure _)
    · exact ⟨_, hbegun⟩
  | _ => first | exact absurd rfl hquiet | exact absurd rfl hhandling

theorem Step.conduct_contract (limit i : Nat) :
    Chronicle.Contract limit (Conduct i) (Rely i) (Kept i) where
  refl := Kept.refl i
  trans := Kept.trans
  relied := fun hk hm => ⟨hk, hm⟩
  course := fun step _ hh =>
    (follows_procedure limit step hh).mono fun answer _ ⟨_, hh'⟩ => hh'.ends answer

end Steps

theorem Chronicle.conduct_start (i : Nat) (directory : String) (log : LogDirectory) :
    Conduct i (.start directory log) := by
  have hnone : ∀ k n, (World.initial directory log).writer? k ≠ some n := fun k n => by
    simp [World.writer?, World.initial]
  refine ⟨fun before m after he => ?_, by simp [Chronicle.start], by simp [Lacks, Chronicle.start],
    by simp [Chronicle.start], fun d hd => ?_, ⟨fun k n hn => absurd hn (hnone k n),
      by simp [Chronicle.start, World.initial], by simp [Chronicle.start, World.initial]⟩⟩
  · simp [Chronicle.start] at he
  · cases d with
    | opening =>
      obtain ⟨n, hn⟩ := hd
      exact absurd hn (hnone i n)
    | finishHandshake => simp [Chronicle.start, World.Shows, World.Initialized, World.initial] at hd
    | _ => exact absurd hd id

namespace Step

variable (limit depth : Nat) (directory : String) (log : LogDirectory) (script : Script)
  (steps : List Step)

/-- At every moment of every run, a session makes its move in order, and whoever closes a connection
is the session that has it. -/
theorem protocol_moments (i : Nat) :
    Session.Protocol i (runMoments limit depth steps (.start directory log script)) ∧
      ∀ n w, .calls (.closeWriter n) w ∈ runMoments limit depth steps (.start directory log script) →
        ∃ j, (Moment.calls (.closeWriter n) w).move? j = some .closing := by
  have hh := (conduct_contract limit i).leaveAll depth steps (.start directory log script)
    (conduct_start i directory log)
  refine ⟨hh.protocol, fun n w hm => ?_⟩
  obtain ⟨j, hj⟩ := hh.closers n w hm
  exact ⟨j, if_pos hj⟩

end Step

end EditorClient
