import Deflow.Run.EventLog

/-!
# Computations that tell of events

A run reads and changes a world and tells of what happens.  With a reporter that never
fails, a computation on a given world has one value, one list of events and one world
behind it.  `Yields` says which; computations one after the other yield their events one
after the other.
-/

namespace Deflow

/-- A reporter that never fails.  It leaves the world as it is, and what it makes of an
event depends on its own state alone. -/
structure Listener (σ W : Type) where
  report : Reporter (StateT σ (StateM W))
  tell : σ → Event → σ
  /-- The states in which nothing is refused. -/
  isOpen : σ → Prop
  accepts : ∀ {state : σ} (event : Event) (world : W), isOpen state →
    ((report event).run.run state).run world = ((.ok (), tell state event), world)
  stays : ∀ {state : σ} (event : Event), isOpen state → isOpen (tell state event)

variable {σ W ε : Type} {α β : Type}

/-- Keeping events, as long as none is to be refused. -/
def Listener.keeping : Listener EventLog W where
  report := Reporter.keeping
  tell := EventLog.push
  isOpen log := log.refusal = none
  accepts {log} event world unrefused := by
    have accepted : log.refuses? = none := by
      simp [EventLog.refuses?, unrefused]
    change StateT.run (StateT.run (ExceptT.run
      (match log.refuses? with
        | some reason => throw reason
        | none => set (log.push event))) log) world = _
    rw [accepted]
    rfl
  stays _ unrefused := unrefused

theorem Listener.isOpen_foldl (listener : Listener σ W) {state : σ} (isOpen : listener.isOpen state)
    (events : List Event) : listener.isOpen (events.foldl listener.tell state) := by
  induction events generalizing state with
  | nil => exact isOpen
  | cons event events inductionHypothesis => exact inductionHypothesis (listener.stays event isOpen)

/-! ## Actions that tell nothing -/

/-- On the world `before`, whatever was told already, an action has a value, tells of
nothing and leaves the world `after`. -/
def Silently (action : StateT σ (StateM W) α) (before : W) (value : α) (after : W) : Prop :=
  ∀ state : σ, (action.run state).run before = ((value, state), after)

namespace Silently

theorem pure (world : W) (value : α) : Silently (σ := σ) (pure value) world value world :=
  fun _ => rfl

theorem bind {action : StateT σ (StateM W) α} {next : α → StateT σ (StateM W) β}
    {before between after : W} {value : α} {result : β}
    (first : Silently action before value between)
    (second : Silently (next value) between result after) :
    Silently (action >>= next) before result after := by
  intro state
  simp only [StateT.run_bind]
  rw [first state]
  exact second state

theorem lift (action : StateM W α) (world : W) :
    Silently (σ := σ) (StateT.lift action) world (action.run world).1 (action.run world).2 :=
  fun _ => rfl

end Silently

/-! ## Actions that tell of events -/

/-- On the world `before`, whatever was told already, an action has a value, tells of
the events and leaves the world `after`. -/
def Yields (listener : Listener σ W) (action : ExceptT ε (StateT σ (StateM W)) α) (before : W)
    (value : α) (events : List Event) (after : W) : Prop :=
  ∀ state : σ, listener.isOpen state →
    (action.run.run state).run before = ((.ok value, events.foldl listener.tell state), after)

namespace Yields

variable {listener : Listener σ W}

theorem pure (world : W) (value : α) : Yields (ε := ε) listener (pure value) world value [] world :=
  fun _ _ => rfl

theorem bind {action : ExceptT ε (StateT σ (StateM W)) α}
    {next : α → ExceptT ε (StateT σ (StateM W)) β} {before between after : W}
    {value : α} {result : β} {told toldNext : List Event}
    (first : Yields listener action before value told between)
    (second : Yields listener (next value) between result toldNext after) :
    Yields listener (action >>= next) before result (told ++ toldNext) after := by
  intro state isOpen
  have afterwards := second _ (listener.isOpen_foldl isOpen told)
  rw [← List.foldl_append] at afterwards
  simp only [ExceptT.run_bind, StateT.run_bind]
  rw [first state isOpen]
  exact afterwards

theorem report (world : W) (event : Event) :
    Yields listener (listener.report event) world () [event] world :=
  fun _ isOpen => listener.accepts event world isOpen

theorem lift {action : StateT σ (StateM W) α} {before after : W} {value : α}
    (silently : Silently action before value after) :
    Yields (ε := ε) listener (ExceptT.lift action) before value [] after := by
  intro state _
  simp only [ExceptT.run_lift, StateT.run_map, List.foldl_nil]
  rw [silently state]
  rfl

/-- Errors may be told apart from others. -/
theorem adapt {δ : Type} {action : ExceptT ε (StateT σ (StateM W)) α} {before after : W} {value : α}
    {told : List Event} (wrap : ε → δ) (yields : Yields listener action before value told after) :
    Yields listener (ExceptT.adapt wrap action) before value told after := by
  intro state isOpen
  have isRun : StateT.run (StateT.run action state) before = _ := yields state isOpen
  change (StateT.run (Except.mapError wrap <$> action) state).run before = _
  rw [StateT.run_map, StateT.run_map, isRun]
  rfl

end Yields

end Deflow
