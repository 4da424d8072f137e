import EditorClient.Proofs.FailedStart

/-! Runs during whose calls nothing else happens. What they come to is said by the world that they
leave and by what came of each call, and what they did is read from the trace. -/

namespace EditorClient

open Procedure

def Call.isAssured : Call → Bool
  | notify _ | closeWriter _ => true
  | _ => false

/-- What may come of a call: it returns, or fails for an ordinary reason if it may fail at all. -/
def Call.Allows (c : Call) (r : Except Fault Reply) : Prop :=
  ∀ f, r = .error f → f.isOrdinary = true ∧ c.isAssured = false

/-- Nothing else happens during the call. -/
structure Exchange.IsLone (x : Exchange) : Prop where
  alone : x.after.world = x.before.world.happen (.called x.call)
  allowed : x.call.Allows x.result

def Exchange.outcome (x : Exchange) : Call × Except Fault Reply := (x.call, x.result)

structure Lone where
  world : World
  calls : List (Call × Except Fault Reply)

def Passage.lone : Passage Lone where
  world := Lone.world
  update := fun f a => ⟨f a.world, a.calls⟩
  call := fun c a post => ∀ r, c.Allows r → post r ⟨a.world.happen (.called c), a.calls ++ [(c, r)]⟩
  mono := fun hp h r hr => hp _ _ (h r hr)

@[simp]
theorem Passage.world_lone (a : Lone) : Passage.lone.world a = a.world := rfl

@[simp]
theorem Passage.update_lone (f : World → World) (a : Lone) :
    Passage.lone.update f a = ⟨f a.world, a.calls⟩ := rfl

namespace Procedure

variable {α : Type} {respond : Call → Setting → Except Fault Reply × Setting}

/-- What a procedure leads to is what its run comes to, if its calls are alone. -/
theorem Leads.lone {p : Procedure α} {post : Except Fault α → Lone → Prop} {s : Setting}
    (calls : List (Call × Except Fault Reply)) (hp : p.Leads .lone ⟨s.world, calls⟩ post)
    (hx : ∀ x ∈ p.exchanges respond s, x.IsLone) :
    post (p.run respond s).1
      ⟨(p.run respond s).2.world, calls ++ (p.exchanges respond s).map Exchange.outcome⟩ := by
  induction p generalizing s calls with
  | done a =>
    rw [exchanges, List.map_nil, List.append_nil]
    exact hp
  | fail f =>
    rw [exchanges, List.map_nil, List.append_nil]
    exact hp
  | read next ih => exact ih s.world calls hp hx
  | update f next ih => exact ih calls hp hx
  | call c next ih =>
    obtain ⟨hfirst, hrest⟩ := List.forall_mem_cons.mp hx
    have hnext := hp _ hfirst.allowed
    -- since the call is alone, the run goes on in the world that the passage goes on in
    rw [← hfirst.alone] at hnext
    have hrun := ih _ _ hnext hrest
    rw [List.append_assoc] at hrun
    exact hrun

theorem leads_lone_calls (p : Procedure α) (a : Lone) :
    p.Leads .lone a fun _ b => ∃ rest, b.calls = a.calls ++ rest := by
  induction p generalizing a with
  | done x => exact ⟨[], (List.append_nil _).symm⟩
  | fail f => exact ⟨[], (List.append_nil _).symm⟩
  | read next ih => exact ih _ a
  | update f next ih => exact ih ⟨f a.world, a.calls⟩
  | call c next ih =>
    refine fun r _ => (ih r _).mono fun _ b ⟨rest, hrest⟩ => ⟨(c, r) :: rest, ?_⟩
    rw [hrest, List.append_assoc]
    rfl

theorem Leads.and_lone {p : Procedure α} {a : Lone} {post post' : Except Fault α → Lone → Prop}
    (h : p.Leads .lone a post) (h' : p.Leads .lone a post') :
    p.Leads .lone a fun r b => post r b ∧ post' r b := by
  induction p generalizing a with
  | done x => exact ⟨h, h'⟩
  | fail f => exact ⟨h, h'⟩
  | read next ih => exact ih _ h h'
  | update f next ih => exact ih h h'
  | call c next ih => exact fun r hr => ih r (h r hr) (h' r hr)

end Procedure

/-- Whether an event is a call, the making of a client, or a notice in a log. -/
def Event.isWork : Event → Bool
  | .called _ | .madeClient _ | .posted (.notice ..) => true
  | _ => false

namespace World

/-- This work has been done from one world to another. -/
def Did (work : List Event) (w w' : World) : Prop :=
  ∃ es, w'.trace = w.trace ++ es ∧ es.filter Event.isWork = work

/-- The logs take all records still that they could take. -/
def TakesAll (w w' : World) : Prop := ∀ r, w.refusal? r = none → w'.refusal? r = none

/-- This work has been done, and nothing but sessions and logs has changed. -/
structure Works (work : List Event) (w w' : World) : Prop where
  did : w.Did work w'
  contexts : w'.contexts = w.contexts
  bootstraps : w'.bootstraps = w.bootstraps
  controllers : w'.controllers = w.controllers
  disposables : w'.disposables = w.disposables
  levels : w'.levels = w.levels
  takesAll : w.TakesAll w'

variable {w w' w'' : World} {work work' : List Event}

theorem Did.of_trace (h : w'.trace = w.trace) : w.Did [] w' := ⟨[], by rw [h, List.append_nil], rfl⟩

theorem Did.trans (h : w.Did work w') (h' : w'.Did work' w'') : w.Did (work ++ work') w'' := by
  obtain ⟨es, hes, rfl⟩ := h
  obtain ⟨es', hes', rfl⟩ := h'
  exact ⟨es ++ es', by rw [hes', hes, List.append_assoc], List.filter_append ..⟩

theorem Did.remark (h : w.Did work w') {r : Remark} (hr : w''.trace = w'.trace ++ [.remarked r]) :
    w.Did work w'' := by
  obtain ⟨es, hes, rfl⟩ := h
  exact ⟨es ++ [.remarked r], by rw [hr, hes, List.append_assoc], by simp [Event.isWork]⟩

theorem did_happen (w : World) (e : Event) : w.Did ([e].filter Event.isWork) (w.happen e) :=
  ⟨[e], rfl, rfl⟩

theorem Works.callSession (w : World) (k : Nat) (c : SessionCall) : w.Works [] (w.callSession k c) :=
  ⟨.of_trace rfl, rfl, rfl, rfl, rfl, rfl, fun _ => id⟩

theorem any_addToFile {x : FileHandler} {files : List LogFile}
    (hx : (files.any fun f => f.handler == x) = true) (h : FileHandler) (line : String) :
    ((addToFile files h line).any fun f => f.handler == x) = true := by
  induction files with
  | nil => cases hx
  | cons f files ih =>
    rw [List.any_cons, Bool.or_eq_true] at hx
    unfold addToFile
    split
    · rwa [List.any_cons, Bool.or_eq_true]
    · rw [List.any_cons, Bool.or_eq_true]
      exact hx.imp_right ih

/-- A file that could be opened can be so still, or is open. -/
theorem opening?_write {h : FileHandler} (hopen : w.opening? h = none) (r : LogRecord) :
    (w.write r).opening? h = none := by
  have hfiles (hany : (w.files.any fun f => f.handler == h) = true) :
      ((w.write r).files.any fun f => f.handler == h) = true :=
    List.foldlRecOn (motive := fun files : List LogFile => (files.any fun f => f.handler == h) = true)
      _ _ hany fun _ hfiles x _ => any_addToFile hfiles x _
  have hsame : (w.write r).closure? h.directory = w.closure? h.directory := rfl
  unfold opening? at hopen ⊢
  rw [hsame]
  split at hopen
  · rw [if_pos (hfiles ‹_›)]
  · split
    · rfl
    · exact hopen

theorem takesAll_write (w : World) (r : LogRecord) : w.TakesAll (w.write r) := fun _ h =>
  refusal?_eq_none_iff.mpr fun hemits x hx =>
    opening?_write (refusal?_eq_none_iff.mp h hemits x hx) r

namespace Works

theorem trans (h : w.Works work w') (h' : w'.Works work' w'') : w.Works (work ++ work') w'' :=
  ⟨h.did.trans h'.did, h'.contexts.trans h.contexts, h'.bootstraps.trans h.bootstraps,
    h'.controllers.trans h.controllers, h'.disposables.trans h.disposables, h'.levels.trans h.levels,
    fun r hr => h'.takesAll r (h.takesAll r hr)⟩

theorem refl (w : World) : w.Works [] w := ⟨.of_trace rfl, rfl, rfl, rfl, rfl, rfl, fun _ h => h⟩

theorem happen (w : World) (e : Event) : w.Works ([e].filter Event.isWork) (w.happen e) :=
  ⟨did_happen w e, rfl, rfl, rfl, rfl, rfl, fun _ h => h⟩

theorem remark (w : World) (r : Remark) : w.Works [] (w.remark r) := happen w (.remarked r)

theorem modifySession (w : World) (i : Nat) (f : Session → Session) :
    w.Works [] (w.modifySession i f) := ⟨.of_trace rfl, rfl, rfl, rfl, rfl, rfl, fun _ h => h⟩

/-- What is posted counts as work if it is a notice and is seen at all. -/
theorem post (w : World) (p : Posting) :
    w.Works (if w.emits p.record = true ∧ Logger.reaches Logger.root p.record.logger = true then
      [Event.posted p].filter Event.isWork else []) (w.post p) := by
  have hwrite : w.Works [] (w.write p.record) :=
    ⟨.of_trace rfl, rfl, rfl, rfl, rfl, rfl, takesAll_write w _⟩
  unfold World.post
  by_cases hemitted : w.emits p.record = true
  · by_cases hreaches : Logger.reaches Logger.root p.record.logger = true
    · rw [if_pos hemitted, if_pos hreaches, if_pos ⟨hemitted, hreaches⟩]
      exact hwrite.trans (happen _ _)
    · rw [if_pos hemitted, if_neg hreaches, if_neg fun h => hreaches h.2]
      exact hwrite
  · rw [if_neg hemitted, if_neg fun h => hemitted h.1]
    exact refl w

theorem post_silent (w : World) {p : Posting} (hp : (Event.posted p).isWork = false) :
    w.Works [] (w.post p) := by
  have h := post w p
  rwa [List.filter_cons_of_neg (by simp [hp]), List.filter_nil, ite_self] at h

end Works

end World

/-- How far some calls come that are to be made one after another, and what comes of them: the first call
that fails is the last that is made. -/
inductive Stages : List Event → List (Call × Except Fault Reply) → List Event → Option Fault → Prop
    where
  | finished : Stages [] [] [] none
  | returned {c : Call} {reply : Reply} {es calls made fault} (h : Stages es calls made fault) :
    Stages (.called c :: es) ((c, .ok reply) :: calls) (.called c :: made) fault
  | failed {c : Call} {f : Fault} {es} : Stages (.called c :: es) [(c, .error f)] [.called c] (some f)

namespace Stages

variable {es es' made made' : List Event} {calls calls' : List (Call × Except Fault Reply)}
  {fault : Option Fault} {f : Fault}

theorem append (h : Stages es calls made none) (h' : Stages es' calls' made' fault) :
    Stages (es ++ es') (calls ++ calls') (made ++ made') fault := by
  generalize hnone : none = g at h
  induction h with
  | finished => exact h'
  | returned _ ih => exact .returned (ih hnone)
  | failed => cases hnone

theorem cut (h : Stages es calls made (some f)) (es' : List Event) :
    Stages (es ++ es') calls made (some f) := by
  generalize hsome : some f = g at h ⊢
  induction h with
  | finished => cases hsome
  | returned _ ih => exact .returned (ih hsome)
  | failed => exact .failed

theorem isPrefix (h : Stages es calls made fault) : made <+: es := by
  induction h with
  | finished => exact List.prefix_rfl
  | returned _ ih => exact List.prefix_cons_inj _ |>.mpr ih
  | failed => exact List.prefix_cons_inj _ |>.mpr (List.nil_prefix)

end Stages

structure Lone.Runs (stages : List Event) (a : Lone) (made : List Event) (fault : Option Fault)
    (b : Lone) : Prop where
  calls : ∃ cs, b.calls = a.calls ++ cs ∧ Stages stages cs made fault
  works : a.world.Works made b.world

namespace Lone.Runs

variable {a b c : Lone} {es es' made made' : List Event} {fault : Option Fault} {f : Fault}

theorem append (h : a.Runs es made none b) (h' : b.Runs es' made' fault c) :
    a.Runs (es ++ es') (made ++ made') fault c := by
  obtain ⟨cs, hcs, hstages⟩ := h.calls
  obtain ⟨cs', hcs', hstages'⟩ := h'.calls
  exact ⟨⟨cs ++ cs', by rw [hcs', hcs, List.append_assoc], hstages.append hstages'⟩,
    h.works.trans h'.works⟩

theorem cut (h : a.Runs es made (some f) b) (es' : List Event) :
    a.Runs (es ++ es') made (some f) b := by
  obtain ⟨cs, hcs, hstages⟩ := h.calls
  exact ⟨⟨cs, hcs, hstages.cut es'⟩, h.works⟩

theorem returned (a : Lone) (c : Call) (reply : Reply) :
    a.Runs [.called c] [.called c] none ⟨a.world.happen (.called c), a.calls ++ [(c, .ok reply)]⟩ :=
  ⟨⟨_, rfl, .returned .finished⟩, .happen a.world (.called c)⟩

theorem failed (a : Lone) (c : Call) (f : Fault) :
    a.Runs [.called c] [.called c] (some f)
      ⟨a.world.happen (.called c), a.calls ++ [(c, .error f)]⟩ :=
  ⟨⟨_, rfl, .failed⟩, .happen a.world (.called c)⟩

theorem within {w : World} (hw : w.Works [] a.world) (h : a.Runs es made fault b) {w' : World}
    (hw' : b.world.Works [] w') : Runs es ⟨w, a.calls⟩ made fault ⟨w', b.calls⟩ :=
  ⟨h.calls, by simpa using (hw.trans h.works).trans hw'⟩

end Lone.Runs

end EditorClient
