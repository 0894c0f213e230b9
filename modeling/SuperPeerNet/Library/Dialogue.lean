/-
This file is a small library of sites that run threads and call each other.

A dialogue is the code of a thread: it acts on the state of its own site, one atomic action at
a time, and calls other sites. A call is handled by the other site in one step, and its answer
comes back in another; between any two steps other threads may run, and a call may fail before
or after it was handled. A request that its caller has given up may still be handled later. What
threads have achieved so far is a world that only grows.

The logic says what holds of every site, what may be asked of a site, and which answers it
gives. A dialogue is safe if it respects the logic in every later world, and the one rule of
this file is that a network of safe threads stays one.
-/

import Mathlib.Logic.Function.Basic
import Mathlib.Order.Basic

/-- The code of a thread. The last action of a thread gives its result. -/
inductive Dialogue (Local Site Request Answer Result : Type) where
  | done (final : Local → Local × Result)
  | act (update : Local → Local) (next : Local → Dialogue Local Site Request Answer Result)
  | call (site : Site) (request : Request)
      (next : Answer → Dialogue Local Site Request Answer Result)

namespace Dialogue

variable {Local Site Request Answer Result Task World : Type}

/-- Run a dialogue that nothing disturbs. -/
def run [DecidableEq Site] (handle : Local → Request → Local × Answer) (home : Site) :
    (Site → Local) → Dialogue Local Site Request Answer Result → (Site → Local) × Result
  | locals, .done final =>
    (Function.update locals home (final (locals home)).1, (final (locals home)).2)
  | locals, .act update next =>
    run handle home (Function.update locals home (update (locals home))) (next (locals home))
  | locals, .call site request next =>
    run handle home (Function.update locals site (handle (locals site) request).1)
      (next (handle (locals site) request).2)

/-- A step that only reads. -/
theorem run_read [DecidableEq Site] (handle : Local → Request → Local × Answer) (home : Site)
    (locals : Site → Local) (next : Local → Dialogue Local Site Request Answer Result) :
    run handle home locals (.act id next) = run handle home locals (next (locals home)) := by
  rw [run]
  congr 1
  exact Function.update_eq_self home locals

/-- A call that the site answers without a change. -/
theorem run_call [DecidableEq Site] {handle : Local → Request → Local × Answer} (home : Site)
    {locals : Site → Local} {site : Site} {request : Request} {answer : Answer}
    (served : handle (locals site) request = (locals site, answer))
    (next : Answer → Dialogue Local Site Request Answer Result) :
    run handle home locals (.call site request next) = run handle home locals (next answer) := by
  rw [run, served]
  congr 1
  exact Function.update_eq_self site locals

/-! ### Networks -/

/-- How the sites of a network work: what they do with a request, the code of their tasks, and
what a finished task adds to the world. -/
structure System (Local Site Request Answer Result Task World : Type) where
  handle : Local → Request → Local × Answer
  program : Task → Dialogue Local Site Request Answer Result
  extend : World → Site → Task → Result → World

/-- How far a thread is. -/
inductive Phase (Local Site Request Answer Result : Type) where
  | running (rest : Dialogue Local Site Request Answer Result)
  | answered (answer : Answer) (next : Answer → Dialogue Local Site Request Answer Result)
  | finished (result : Result)

/-- A thread of a site. -/
structure Thread (Local Site Request Answer Result Task : Type) where
  home : Site
  task : Task
  phase : Phase Local Site Request Answer Result

/-- The states of the sites, the threads that have been started, and the requests under way that
nobody waits for. -/
structure Network (Local Site Request Answer Result Task World : Type) where
  world : World
  locals : Site → Local
  threads : List (Thread Local Site Request Answer Result Task)
  delayed : List (Site × Request)

/-- What can happen in a network. A thread that proceeds takes the one step that is next. -/
inductive Action (Site Answer Task : Type) where
  | start (home : Site) (task : Task)
  | proceed (index : ℕ)
  | fail (index : ℕ) (failure : Answer)
  | deliver (index : ℕ)

section Step

variable [DecidableEq Site] (system : System Local Site Request Answer Result Task World)

/-- A network in which a thread has reached a phase and a site a state. -/
def Network.write (network : Network Local Site Request Answer Result Task World) (index : ℕ)
    (thread : Thread Local Site Request Answer Result Task)
    (phase : Phase Local Site Request Answer Result) (site : Site) (state : Local) :
    Network Local Site Request Answer Result Task World :=
  { network with
    locals := Function.update network.locals site state
    threads := network.threads.set index { thread with phase := phase } }

/-- The next step of a thread. -/
def Network.proceed (network : Network Local Site Request Answer Result Task World) (index : ℕ)
    (thread : Thread Local Site Request Answer Result Task) :
    Option (Network Local Site Request Answer Result Task World) :=
  let state := network.locals thread.home
  match thread.phase with
  | .running (.done final) =>
    some { network.write index thread (.finished (final state).2) thread.home (final state).1 with
      world := system.extend network.world thread.home thread.task (final state).2 }
  | .running (.act update next) =>
    some (network.write index thread (.running (next state)) thread.home (update state))
  | .running (.call site request next) =>
    let outcome := system.handle (network.locals site) request
    some (network.write index thread (.answered outcome.2 next) site outcome.1)
  | .answered answer next =>
    some (network.write index thread (.running (next answer)) thread.home state)
  | .finished _ => none

/-- A call fails: its answer is lost, or the caller does not wait any longer. -/
def Network.fail (network : Network Local Site Request Answer Result Task World) (index : ℕ)
    (thread : Thread Local Site Request Answer Result Task) (failure : Answer) :
    Option (Network Local Site Request Answer Result Task World) :=
  let state := network.locals thread.home
  match thread.phase with
  | .running (.call site request next) =>
    some { network.write index thread (.running (next failure)) thread.home state with
      delayed := network.delayed ++ [(site, request)] }
  | .answered _ next =>
    some (network.write index thread (.running (next failure)) thread.home state)
  | _ => none

/-- The network after an action. -/
def Network.step (network : Network Local Site Request Answer Result Task World) :
    Action Site Answer Task → Option (Network Local Site Request Answer Result Task World)
  | .start home task => some { network with
      threads := network.threads ++ [⟨home, task, .running (system.program task)⟩] }
  | .proceed index => network.threads[index]?.bind (network.proceed system index)
  | .fail index failure =>
    network.threads[index]?.bind fun thread => network.fail index thread failure
  | .deliver index => network.delayed[index]?.map fun (site, request) => { network with
      locals := Function.update network.locals site (system.handle (network.locals site) request).1
      delayed := network.delayed.eraseIdx index }

/-- A phase in which a thread is not finished. -/
def Phase.Active : Phase Local Site Request Answer Result → Prop
  | .finished _ => False
  | _ => True

omit [DecidableEq Site] in
/-- An action in which a site handles a request. -/
def Network.Handles (network : Network Local Site Request Answer Result Task World)
    (action : Action Site Answer Task) (site : Site) (request : Request) : Prop :=
  match action with
  | .proceed index => ∃ thread next, network.threads[index]? = some thread ∧
      thread.phase = .running (.call site request next)
  | .deliver index => network.delayed[index]? = some (site, request)
  | _ => False

variable {system} {network next : Network Local Site Request Answer Result Task World}
  {action : Action Site Answer Task}

/-- What a step does to the threads and to the world: one more thread, another phase of an active
thread, or nothing. Only a thread that finishes changes the world. -/
theorem Network.step_cases (stepped : network.step system action = some next) :
    (∃ home task, action = .start home task ∧ next.world = network.world ∧
      next.threads = network.threads ++ [⟨home, task, .running (system.program task)⟩]) ∨
    (∃ (index : ℕ) (thread : Thread Local Site Request Answer Result Task)
        (phase : Phase Local Site Request Answer Result),
      network.threads[index]? = some thread ∧ thread.phase.Active ∧
      next.threads = network.threads.set index { thread with phase := phase } ∧
      (next.world = network.world ∨ ∃ final, thread.phase = .running (.done final) ∧
        next.world = system.extend network.world thread.home thread.task
          (final (network.locals thread.home)).2)) ∨
    (next.world = network.world ∧ next.threads = network.threads) := by
  cases action with
  | start home task =>
    cases stepped
    exact Or.inl ⟨home, task, rfl, rfl, rfl⟩
  | proceed index =>
    obtain ⟨⟨home, task, phase⟩, found, proceeded⟩ := Option.bind_eq_some_iff.mp stepped
    cases phase with
    | finished result => cases proceeded
    | answered answer rest =>
      cases proceeded
      exact Or.inr (Or.inl ⟨index, _, _, found, trivial, rfl, Or.inl rfl⟩)
    | running rest =>
      cases rest with
      | done final =>
        cases proceeded
        exact Or.inr (Or.inl ⟨index, _, _, found, trivial, rfl, Or.inr ⟨final, rfl, rfl⟩⟩)
      | act update rest =>
        cases proceeded
        exact Or.inr (Or.inl ⟨index, _, _, found, trivial, rfl, Or.inl rfl⟩)
      | call site request rest =>
        cases proceeded
        exact Or.inr (Or.inl ⟨index, _, _, found, trivial, rfl, Or.inl rfl⟩)
  | fail index failure =>
    obtain ⟨⟨home, task, phase⟩, found, failed⟩ := Option.bind_eq_some_iff.mp stepped
    cases phase with
    | finished result => cases failed
    | answered answer rest =>
      cases failed
      exact Or.inr (Or.inl ⟨index, _, _, found, trivial, rfl, Or.inl rfl⟩)
    | running rest =>
      cases rest with
      | done final => cases failed
      | act update rest => cases failed
      | call site request rest =>
        cases failed
        exact Or.inr (Or.inl ⟨index, _, _, found, trivial, rfl, Or.inl rfl⟩)
  | deliver index =>
    obtain ⟨_, _, delivered⟩ := Option.map_eq_some_iff.mp stepped
    cases delivered
    exact Or.inr (Or.inr ⟨rfl, rfl⟩)

omit [DecidableEq Site] in
/-- No site runs two threads at the same time. -/
def Network.Exclusive (network : Network Local Site Request Answer Result Task World) : Prop :=
  ∀ (first second : ℕ) (one other : Thread Local Site Request Answer Result Task),
    network.threads[first]? = some one → network.threads[second]? = some other →
    one.phase.Active → other.phase.Active → one.home = other.home → first = second

/-- Threads stay alone at their sites if they are started only where no thread is under way. -/
theorem Network.Exclusive.step (exclusive : network.Exclusive)
    (starts : ∀ home task, action = .start home task →
      ∀ thread ∈ network.threads, thread.phase.Active → thread.home ≠ home)
    (stepped : network.step system action = some next) : next.Exclusive := by
  intro first second one other isOne isOther oneActive otherActive same
  rcases Network.step_cases stepped with
    ⟨home, task, started, -, threads⟩ | ⟨index, thread, phase, found, active, threads, -⟩ |
    ⟨-, threads⟩
  · rw [threads] at isOne isOther
    have free := starts home task started
    rw [List.getElem?_append] at isOne isOther
    split at isOne
    · split at isOther
      · exact exclusive first second one other isOne isOther oneActive otherActive same
      · have new := List.mem_singleton.mp (List.mem_of_getElem? isOther)
        exact absurd (same.trans (congrArg Thread.home new))
          (free one (List.mem_of_getElem? isOne) oneActive)
    · split at isOther
      · have new := List.mem_singleton.mp (List.mem_of_getElem? isOne)
        exact absurd (same.symm.trans (congrArg Thread.home new))
          (free other (List.mem_of_getElem? isOther) otherActive)
      · have bound := (List.getElem?_eq_some_iff.mp isOne).1
        have otherBound := (List.getElem?_eq_some_iff.mp isOther).1
        simp only [List.length_singleton] at bound otherBound
        omega
  · rw [threads] at isOne isOther
    -- the thread that has moved stands for what it was before
    have before : ∀ (place : ℕ) (now : Thread Local Site Request Answer Result Task),
        (network.threads.set index { thread with phase := phase })[place]? = some now →
        now.phase.Active → ∃ old : Thread Local Site Request Answer Result Task,
          network.threads[place]? = some old ∧ old.phase.Active ∧ old.home = now.home := by
      intro place now isNow nowActive
      by_cases here : index = place
      · subst here
        rw [List.getElem?_set_self', found] at isNow
        cases isNow
        exact ⟨thread, found, active, rfl⟩
      · rw [List.getElem?_set_ne here] at isNow
        exact ⟨now, isNow, nowActive, rfl⟩
    obtain ⟨oldOne, isOldOne, oldOneActive, oneHome⟩ := before first one isOne oneActive
    obtain ⟨oldOther, isOldOther, oldOtherActive, otherHome⟩ :=
      before second other isOther otherActive
    exact exclusive first second oldOne oldOther isOldOne isOldOther oldOneActive oldOtherActive
      (oneHome.trans (same.trans otherHome.symm))
  · rw [threads] at isOne isOther
    exact exclusive first second one other isOne isOther oneActive otherActive same

/-- A site that handles a request is afterwards as its handler leaves it. -/
theorem Network.Handles.locals {site : Site} {request : Request}
    (handles : network.Handles action site request)
    (stepped : network.step system action = some next) :
    next.locals site = (system.handle (network.locals site) request).1 := by
  cases action with
  | start home task => cases handles
  | fail index failure => cases handles
  | proceed index =>
    obtain ⟨⟨home, task, phase⟩, rest, found, calling⟩ := handles
    obtain ⟨thread, same, proceeded⟩ := Option.bind_eq_some_iff.mp stepped
    cases found.symm.trans same
    cases calling
    cases proceeded
    exact Function.update_self ..
  | deliver index =>
    obtain ⟨_, same, delivered⟩ := Option.map_eq_some_iff.mp stepped
    cases (show _ = _ from handles).symm.trans same
    cases delivered
    exact Function.update_self ..

end Step

/-! ### The logic -/

/-- What a network respects. All of it may depend on the world. -/
structure Logic (Local Site Request Answer Result Task World : Type) where
  /-- what holds of the state of a site -/
  holds : World → Site → Local → Prop
  /-- how the state of a site may change -/
  moves : World → Site → Local → Local → Prop
  /-- what may be asked of a site -/
  asks : World → Site → Request → Prop
  /-- the answers of a site -/
  admits : World → Site → Request → Answer → Prop
  /-- what holds while a task is under way -/
  live : World → Site → Task → Prop
  /-- what a task results in -/
  returns : World → Site → Task → Result → Prop

section Safety

variable [Preorder World] (system : System Local Site Request Answer Result Task World)
  (logic : Logic Local Site Request Answer Result Task World)

/-- A dialogue that respects the logic from a world on. -/
def Safe (home : Site) (task : Task) :
    World → Dialogue Local Site Request Answer Result → Prop
  | world, .done final => ∀ later, world ≤ later → logic.live later home task →
      ∀ state, logic.holds later home state →
        logic.moves later home state (final state).1 ∧
        logic.holds (system.extend later home task (final state).2) home (final state).1 ∧
        logic.returns (system.extend later home task (final state).2) home task (final state).2
  | world, .act update next => ∀ later, world ≤ later → logic.live later home task →
      ∀ state, logic.holds later home state →
        logic.moves later home state (update state) ∧ logic.holds later home (update state) ∧
        Safe home task later (next state)
  | world, .call site request next => ∀ later, world ≤ later → logic.live later home task →
      logic.asks later site request ∧
      ∀ answer, logic.admits later site request answer → Safe home task later (next answer)

variable {system logic} {home : Site} {task : Task}

/-- What is safe stays safe in later worlds. -/
theorem Safe.mono {world later : World} {dialogue : Dialogue Local Site Request Answer Result}
    (safe : Safe system logic home task world dialogue) (grown : world ≤ later) :
    Safe system logic home task later dialogue := by
  cases dialogue with
  | done final => exact fun last after => safe last (le_trans grown after)
  | act update next => exact fun last after => safe last (le_trans grown after)
  | call site request next => exact fun last after => safe last (le_trans grown after)

variable (system logic)

/-- A phase from which a thread goes on safely. -/
def SafePhase (fails : Answer → Prop) (world : World) (home : Site) (task : Task) :
    Phase Local Site Request Answer Result → Prop
  | .running rest => logic.live world home task ∧ Safe system logic home task world rest
  | .answered answer next => logic.live world home task ∧
      Safe system logic home task world (next answer) ∧
      ∀ failure, fails failure → Safe system logic home task world (next failure)
  | .finished result => logic.returns world home task result

/-- A network of safe threads at sites that are as they should be. -/
structure SafeNetwork (fails : Answer → Prop)
    (network : Network Local Site Request Answer Result Task World) : Prop where
  sites : ∀ site, logic.holds network.world site (network.locals site)
  threads : ∀ thread ∈ network.threads,
    SafePhase system logic fails network.world thread.home thread.task thread.phase
  delayed : ∀ request ∈ network.delayed, logic.asks network.world request.1 request.2

/-- What sites and failures have to satisfy. -/
structure Sound (fails : Answer → Prop) : Prop where
  handles : ∀ {world site state request}, logic.holds world site state →
    logic.asks world site request →
    logic.moves world site state (system.handle state request).1 ∧
    logic.holds world site (system.handle state request).1 ∧
    logic.admits world site request (system.handle state request).2
  failing : ∀ {world site request failure}, fails failure →
    logic.admits world site request failure
  lasting : ∀ {world later site request}, world ≤ later → logic.asks world site request →
    logic.asks later site request

/-- The world may grow from one value to another at a site: other sites and the threads that are
given stay as they should be. -/
structure Grows (fails : Answer → Prop) (site : Site) (world later : World)
    (others : List (Thread Local Site Request Answer Result Task)) : Prop where
  grown : world ≤ later
  sites : ∀ other state, other ≠ site → logic.holds world other state →
    logic.holds later other state
  threads : ∀ thread ∈ others,
    SafePhase system logic fails world thread.home thread.task thread.phase →
    SafePhase system logic fails later thread.home thread.task thread.phase

/-- What an action needs in order to keep a network safe. -/
def Allowed (fails : Answer → Prop)
    (network : Network Local Site Request Answer Result Task World) :
    Action Site Answer Task → Prop
  | .start home task => logic.live network.world home task ∧
      Safe system logic home task network.world (system.program task)
  | .proceed index => ∀ thread final, network.threads[index]? = some thread →
      thread.phase = .running (.done final) →
      Grows system logic fails thread.home network.world
        (system.extend network.world thread.home thread.task
          (final (network.locals thread.home)).2) (network.threads.eraseIdx index)
  | .fail _ failure => fails failure
  | .deliver _ => True

variable {system logic} [DecidableEq Site] {fails : Answer → Prop}
  {network next : Network Local Site Request Answer Result Task World}

omit [DecidableEq Site] [Preorder World] in
/-- After a place of a list has been written, the other elements are the old ones. -/
theorem mem_set_cases {Element : Type} {elements : List Element} {index : ℕ}
    {written element : Element} (inside : element ∈ elements.set index written) :
    element = written ∨ element ∈ elements.eraseIdx index := by
  obtain ⟨place, found⟩ := List.mem_iff_getElem?.mp inside
  by_cases same : index = place
  · subst same
    rw [List.getElem?_set_self'] at found
    obtain ⟨_, _, rfl⟩ := Option.map_eq_some_iff.mp found
    exact Or.inl rfl
  · rw [List.getElem?_set_ne same] at found
    exact Or.inr (List.mem_eraseIdx_iff_getElem?.mpr ⟨place, Ne.symm same, found⟩)

omit [Preorder World] in
/-- Sites that a step does not write stay as they are, and the one that it writes moves. -/
theorem moves_update {site : Site} {state : Local} {world : World}
    {locals : Site → Local} (moved : logic.moves world site (locals site) state) (other : Site) :
    Function.update locals site state other = locals other ∨
      logic.moves world other (locals other) (Function.update locals site state other) := by
  by_cases same : other = site
  · subst same
    rw [Function.update_self]
    exact Or.inr moved
  · rw [Function.update_of_ne same]
    exact Or.inl rfl

omit [Preorder World] in
theorem holds_update {site : Site} {state : Local} {world : World} {locals : Site → Local}
    (sites : ∀ site, logic.holds world site (locals site)) (held : logic.holds world site state)
    (other : Site) : logic.holds world other (Function.update locals site state other) := by
  by_cases same : other = site
  · subst same
    rw [Function.update_self]
    exact held
  · rw [Function.update_of_ne same]
    exact sites other

/-- A step that keeps the world and writes one site and one thread. -/
theorem SafeNetwork.write (safe : SafeNetwork system logic fails network) {index : ℕ}
    {thread : Thread Local Site Request Answer Result Task}
    {phase : Phase Local Site Request Answer Result} {site : Site} {state : Local}
    (held : logic.holds network.world site state)
    (goesOn : SafePhase system logic fails network.world thread.home thread.task phase) :
    SafeNetwork system logic fails (network.write index thread phase site state) where
  sites := holds_update safe.sites held
  threads other inside := by
    rcases List.mem_or_eq_of_mem_set inside with before | rfl
    · exact safe.threads other before
    · exact goesOn
  delayed := safe.delayed

/-- A thread of a safe network takes its next step. -/
theorem SafeNetwork.proceed (sound : Sound system logic fails)
    (safe : SafeNetwork system logic fails network) {index : ℕ}
    {thread : Thread Local Site Request Answer Result Task}
    (found : network.threads[index]? = some thread)
    (allowed : Allowed system logic fails network (.proceed index))
    (stepped : network.proceed system index thread = some next) :
    SafeNetwork system logic fails next ∧
    ∀ site, next.locals site = network.locals site ∨
      logic.moves network.world site (network.locals site) (next.locals site) := by
  have phaseSafe := safe.threads thread (List.mem_of_getElem? found)
  have here := safe.sites thread.home
  obtain ⟨home, task, phase⟩ := thread
  cases phase with
  | finished result => cases stepped
  | answered answer rest =>
    cases stepped
    refine ⟨safe.write here ⟨phaseSafe.1, phaseSafe.2.1⟩, fun site => Or.inl ?_⟩
    exact congrFun (Function.update_eq_self home network.locals) site
  | running rest =>
    obtain ⟨live, goesOn⟩ := phaseSafe
    cases rest with
    | act update rest =>
      cases stepped
      obtain ⟨moved, held, later⟩ := goesOn network.world le_rfl live _ here
      exact ⟨safe.write held ⟨live, later⟩, moves_update moved⟩
    | call site request rest =>
      cases stepped
      obtain ⟨asked, answers⟩ := goesOn network.world le_rfl live
      obtain ⟨moved, held, admitted⟩ := sound.handles (safe.sites site) asked
      exact ⟨safe.write held ⟨live, answers _ admitted, fun failure failing =>
        answers failure (sound.failing failing)⟩, moves_update moved⟩
    | done final =>
      cases stepped
      obtain ⟨moved, held, returned⟩ := goesOn network.world le_rfl live _ here
      obtain ⟨grown, sites, threads⟩ := allowed _ final found rfl
      refine ⟨⟨?_, ?_, fun request inside => sound.lasting grown (safe.delayed request inside)⟩,
        moves_update moved⟩
      · intro other
        by_cases same : other = home
        · subst same
          have written : (network.write index ⟨other, task, .running (.done final)⟩
              (.finished (final (network.locals other)).2) other
              (final (network.locals other)).1).locals other = (final (network.locals other)).1 :=
            Function.update_self ..
          simp only [written]
          exact held
        · have kept : (network.write index ⟨home, task, .running (.done final)⟩
              (.finished (final (network.locals home)).2) home
              (final (network.locals home)).1).locals other = network.locals other :=
            Function.update_of_ne same ..
          simp only [kept]
          exact sites other _ same (safe.sites other)
      · intro other inside
        rcases mem_set_cases inside with rfl | among
        · exact returned
        · exact threads other among (safe.threads other (List.mem_of_mem_eraseIdx among))

omit [DecidableEq Site] in
/-- What a site handles in a safe network may be asked of it. -/
theorem SafeNetwork.asked (safe : SafeNetwork system logic fails network)
    {action : Action Site Answer Task} {site : Site} {request : Request}
    (handles : network.Handles action site request) : logic.asks network.world site request := by
  cases action with
  | start home task => cases handles
  | fail index failure => cases handles
  | proceed index =>
    obtain ⟨⟨home, task, phase⟩, rest, found, calling⟩ := handles
    obtain ⟨live, goesOn⟩ : SafePhase system logic fails network.world home task
        (.running (.call site request rest)) :=
      calling ▸ safe.threads _ (List.mem_of_getElem? found)
    exact (goesOn network.world le_rfl live).1
  | deliver index => exact safe.delayed _ (List.mem_of_getElem? handles)

omit [DecidableEq Site] in
/-- A thread stays safe in a later world in which its task may go on. -/
theorem SafePhase.mono {home : Site} {task : Task} {world later : World}
    {phase : Phase Local Site Request Answer Result}
    (safe : SafePhase system logic fails world home task phase) (grown : world ≤ later)
    (live : phase.Active → logic.live world home task → logic.live later home task)
    (returned : ∀ result, logic.returns world home task result →
      logic.returns later home task result) :
    SafePhase system logic fails later home task phase := by
  cases phase with
  | running rest => exact ⟨live trivial safe.1, safe.2.mono grown⟩
  | answered answer next =>
    exact ⟨live trivial safe.1, safe.2.1.mono grown,
      fun failure failing => (safe.2.2 failure failing).mono grown⟩
  | finished result => exact returned result safe

omit [DecidableEq Site] in
theorem Grows.refl (site : Site) (world : World)
    (others : List (Thread Local Site Request Answer Result Task)) :
    Grows system logic fails site world world others :=
  ⟨le_rfl, fun _ _ _ held => held, fun _ _ safe => safe⟩

/-- An allowed action keeps a network safe, and the sites change as they may. -/
theorem SafeNetwork.step (sound : Sound system logic fails)
    (safe : SafeNetwork system logic fails network) {action : Action Site Answer Task}
    (allowed : Allowed system logic fails network action)
    (stepped : network.step system action = some next) :
    SafeNetwork system logic fails next ∧
    ∀ site, next.locals site = network.locals site ∨
      logic.moves network.world site (network.locals site) (next.locals site) := by
  cases action with
  | start home task =>
    cases stepped
    refine ⟨⟨safe.sites, ?_, safe.delayed⟩, fun site => Or.inl rfl⟩
    intro thread inside
    rcases List.mem_append.mp inside with before | new
    · exact safe.threads thread before
    · rw [List.mem_singleton.mp new]
      exact allowed
  | proceed index =>
    obtain ⟨thread, found, proceeded⟩ := Option.bind_eq_some_iff.mp stepped
    exact safe.proceed sound found allowed proceeded
  | fail index failure =>
    obtain ⟨thread, found, failed⟩ := Option.bind_eq_some_iff.mp stepped
    have phaseSafe := safe.threads thread (List.mem_of_getElem? found)
    have here := safe.sites thread.home
    have unmoved : ∀ site, Function.update network.locals thread.home
        (network.locals thread.home) site = network.locals site :=
      congrFun (Function.update_eq_self thread.home network.locals)
    obtain ⟨home, task, phase⟩ := thread
    cases phase with
    | finished result => cases failed
    | answered answer rest =>
      cases failed
      exact ⟨safe.write here ⟨phaseSafe.1, phaseSafe.2.2 failure allowed⟩,
        fun site => Or.inl (unmoved site)⟩
    | running rest =>
      cases rest with
      | done final => cases failed
      | act update rest => cases failed
      | call site request rest =>
        cases failed
        obtain ⟨live, goesOn⟩ := phaseSafe
        obtain ⟨asked, answers⟩ := goesOn network.world le_rfl live
        obtain ⟨sites, threads, delayed⟩ :=
          @SafeNetwork.write _ _ _ _ _ _ _ _ system logic _ fails network safe index
            ⟨home, task, .running (.call site request rest)⟩ (.running (rest failure)) home
            (network.locals home) here ⟨live, answers failure (sound.failing allowed)⟩
        refine ⟨⟨sites, threads, ?_⟩, fun site => Or.inl (unmoved site)⟩
        intro other inside
        rcases List.mem_append.mp inside with before | new
        · exact delayed other before
        · rw [List.mem_singleton.mp new]
          exact asked
  | deliver index =>
    obtain ⟨⟨site, request⟩, found, delivered⟩ := Option.map_eq_some_iff.mp stepped
    cases delivered
    have asked := safe.delayed _ (List.mem_of_getElem? found)
    obtain ⟨moved, held, -⟩ := sound.handles (safe.sites site) asked
    exact ⟨⟨holds_update safe.sites held, safe.threads,
      fun other inside => safe.delayed other (List.mem_of_mem_eraseIdx inside)⟩,
      moves_update moved⟩

end Safety

end Dialogue
