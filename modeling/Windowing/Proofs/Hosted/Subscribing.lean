import Mathlib.Data.List.Nodup
import Mathlib.Data.Option.Basic
import Windowing.Proofs.Hosted.Mounted

/-!
# Every listener is given back

A list takes one listener from its container and gives it back when it is unmounted, or
when it is closed if that comes first. Lists may come and go in one container, in any
order, and the container may change between them.

The container is watched by a ledger of the listeners that it gave and took back, and
each list by the story of its life. The lists read neither of them. The invariant is that
the two tell the same (`Balanced`): a listener that was given to a list is with the
container if and only if the life of the list goes on.

Results:
1. `kept_operate`: an operation that does not unmount can only scroll the container.
2. `turn_operate`, `turn_close`: a listener is given back when a life ends, and only then.
3. `Balanced.ledger_after`, `Balanced.after`: what one event writes into the ledger, and
   that it keeps the balance.
4. `run_givesBack`: so every list gives its listener back, once.
-/

namespace Windowing

/-! ## What an operation does to the container -/

namespace Operation

variable {ι : Type}

/-- Whether the operation unmounts the list. -/
def unmounts : Operation ι → Bool
  | unmount => true
  | _ => false

theorem listenerAfter_eq (op : Operation ι) (listener : Option Listener) :
    op.listenerAfter listener = if op.unmounts then none else listener := by
  cases op <;> rfl

end Operation

namespace HostedList

variable {ι η s α : Type} [Container η]

section

variable (kept : η → α)
  (scrolls : ∀ host offset, kept (Container.scrollTo host offset) = kept host)
include scrolls

theorem kept_measureWindow (ask : Nat → StateM s (Except MeasureFailure UInt32))
    (l : HostedList ι) (host : η) (asker : s) :
    kept ((measureWindow ask l host).run asker).run.1.state.2 = kept host := by
  rw [(scroll_measureWindow l host ask asker).1]
  split
  · rfl
  · exact scrolls host _

theorem kept_stabilize (ask : Nat → StateM s (Except MeasureFailure UInt32))
    (l : HostedList ι) (host : η) (asker : s) (passes : Nat) :
    kept ((stabilize ask l host passes).run asker).run.1.state.2 = kept host := by
  induction passes generalizing l host asker with
  | zero => rfl
  | succ passes ih =>
    have pass := kept_measureWindow kept scrolls ask l host asker
    rw [run_stabilize_succ]
    dsimp only
    cases ((measureWindow ask l host).run asker).run.1.reply.window with
    | none => exact pass
    | some window => exact (ih _ _ _).trans pass

/-- An operation that does not unmount keeps all that scrolling the container keeps. -/
theorem kept_operate (l : HostedList ι) (host : η) {op : Operation ι}
    (stays : op.unmounts = false) : kept (l.operate host op).2 = kept host := by
  cases op with
  | unmount => cases stays
  | reveal row align => exact scrolls host _
  | measure ask asker => exact kept_measureWindow kept scrolls ask l host asker
  | stabilize ask asker passes => exact kept_stabilize kept scrolls ask l host asker passes
  | _ => rfl

end

/-- A container that is offered a refused configuration does not hear of it. -/
theorem mount_eq_error {host host' : η} {items : Array ι} {config : Config} {e : SetupError}
    (refused : mount host items config = (.error e, host')) : host' = host := by
  unfold mount at refused
  split at refused
  · exact (Prod.mk.inj refused).2.symm
  · exact (Prod.mk.inj refused).2.symm
  · cases refused

theorem receive_of_unmounted {l : HostedList ι} (unmounted : l.listener = none)
    (event : HostEvent) : l.receive event = ⟨l, none, []⟩ := by
  have closed : l.isMounted = false := Option.isSome_eq_false_iff.mpr (by rw [unmounted]; rfl)
  unfold receive
  rw [closed]
  rfl

end HostedList

/-! ## Ledgers -/

/-- A listener that a container gave or took back. -/
inductive Entry where
  | subscribed (listener : Listener)
  | unsubscribed (listener : Listener)
  deriving DecidableEq, Repr

/-- What happened to the listeners of a container, in order. -/
abbrev Ledger := List Entry

namespace Ledger

/-- The listeners that were given. -/
def given (ledger : Ledger) : List Listener :=
  ledger.filterMap fun
    | .subscribed listener => some listener
    | .unsubscribed _ => none

/-- The listeners that were taken back. -/
def returned (ledger : Ledger) : List Listener :=
  ledger.filterMap fun
    | .subscribed _ => none
    | .unsubscribed listener => some listener

/-- The listeners that are registered at the end. -/
def registered (ledger : Ledger) : List Listener :=
  ledger.foldl (fun listeners entry =>
    match entry with
    | .subscribed listener => listeners ++ [listener]
    | .unsubscribed listener => listeners.erase listener) []

variable (ledger : Ledger) (listener : Listener)

@[simp] theorem given_subscribed :
    given (ledger ++ [.subscribed listener]) = ledger.given ++ [listener] :=
  List.filterMap_append

@[simp] theorem given_unsubscribed :
    given (ledger ++ [.unsubscribed listener]) = ledger.given :=
  List.filterMap_append.trans (List.append_nil _)

@[simp] theorem returned_subscribed :
    returned (ledger ++ [.subscribed listener]) = ledger.returned :=
  List.filterMap_append.trans (List.append_nil _)

@[simp] theorem returned_unsubscribed :
    returned (ledger ++ [.unsubscribed listener]) = ledger.returned ++ [listener] :=
  List.filterMap_append

@[simp] theorem registered_subscribed :
    registered (ledger ++ [.subscribed listener]) = ledger.registered ++ [listener] :=
  List.foldl_append

@[simp] theorem registered_unsubscribed :
    registered (ledger ++ [.unsubscribed listener]) = ledger.registered.erase listener :=
  List.foldl_append

end Ledger

/-- A container with the ledger of its listeners. -/
structure Audited (η : Type) where
  host : η
  ledger : Ledger := []

instance {η : Type} [Container η] : Container (Audited η) where
  offset audited := Container.offset audited.host
  height audited := Container.height audited.host
  subscribe audited :=
    let (listener, host) := Container.subscribe audited.host
    (listener, { host, ledger := audited.ledger ++ [.subscribed listener] })
  unsubscribe audited listener :=
    { host := Container.unsubscribe audited.host listener
      ledger := audited.ledger ++ [.unsubscribed listener] }
  scrollTo audited offset := { audited with host := Container.scrollTo audited.host offset }

/-! ## Lives -/

/-- The life of a list from when it is mounted: it ends when the list is unmounted or
closed, whichever comes first. -/
structure Life (ι : Type) where
  /-- The listener that the list was mounted with. -/
  own : Option Listener
  /-- The list, until it is closed. -/
  list? : Option (HostedList ι)
  ended : Bool := false

namespace Life

variable {ι η : Type} {life : Life ι}

/-- The life of a list that was just mounted. -/
def mounted (l : HostedList ι) : Life ι := { own := l.listener, list? := some l }

/-- The listener that the list has. -/
def held (life : Life ι) : Option Listener := life.list?.bind HostedList.listener

/-- The listener that the list must have given back. -/
def returned (life : Life ι) : Option Listener := if life.ended then life.own else none

/-- The entries that are due when the list is unmounted or closed: its own listener, the
first time. -/
def due (life : Life ι) : Ledger :=
  if life.ended then [] else life.own.toList.map .unsubscribed

/-- A list has its own listener as long as its life goes on, and then none. -/
structure Sound (life : Life ι) : Prop where
  held_eq : life.held = if life.ended then none else life.own
  ended_of_closed : life.list? = none → life.ended

/-- A step in a life, which may end it: the list stays sound, and its container writes
what is due. -/
structure Turn (ends : Bool) (life : Life ι) (host : Audited η) (after : Life ι × Audited η) :
    Prop where
  own_eq : after.1.own = life.own
  ended_eq : after.1.ended = (life.ended || ends)
  sound : after.1.Sound
  ledger_eq : after.2.ledger = host.ledger ++ if ends then life.due else []

theorem sound_mounted (l : HostedList ι) : (mounted l).Sound := ⟨rfl, nofun⟩

theorem returned_eq_some_iff {own : Listener} :
    life.returned = some own ↔ life.ended ∧ life.own = some own := by
  unfold returned
  cases life.ended <;> simp

theorem Sound.listener_eq (sound : life.Sound) {l : HostedList ι} (isOpen : life.list? = some l) :
    l.listener = if life.ended then none else life.own := by
  rw [← sound.held_eq, held, isOpen, Option.bind_some]

/-- Nothing is left to be done for a closed list. -/
theorem Sound.turn_of_closed (sound : life.Sound) (closed : life.list? = none) (ends : Bool)
    (host : Audited η) : Turn ends life host (life, host) := by
  have ended : life.ended = true := sound.ended_of_closed closed
  have due : life.due = [] := if_pos ended
  refine ⟨rfl, ?_, sound, ?_⟩
  · rw [ended, Bool.true_or]
  · rw [due, ite_self, List.append_nil]

/-- A step in a life writes nothing and leaves the listener where it is, or it gives the
listener back. -/
theorem Turn.stays_or_ends {ends : Bool} {host : Audited η} {after : Life ι × Audited η}
    (turn : Turn ends life host after) (sound : life.Sound) {own : Listener}
    (known : life.own = some own) :
    (after.1.held = life.held ∧ after.1.returned = life.returned ∧
      after.2.ledger = host.ledger) ∨
    (life.held = some own ∧ after.1.held = none ∧
      life.returned = none ∧ after.1.returned = some own ∧
      after.2.ledger = host.ledger ++ [.unsubscribed own]) := by
  obtain ⟨own_eq, ended_eq, ⟨held_after, _⟩, ledger_eq⟩ := turn
  rw [held_after, sound.held_eq, returned, returned, ledger_eq, ended_eq, own_eq, known]
  unfold due
  cases life.ended with
  | true => exact .inl ⟨rfl, rfl, by cases ends <;> exact List.append_nil _⟩
  | false =>
    cases ends with
    | true => exact .inr ⟨rfl, rfl, rfl, rfl, by rw [known]; rfl⟩
    | false => exact .inl ⟨rfl, rfl, List.append_nil _⟩

variable [Container η]

/-- An operation on the list; nothing once it is closed. -/
def operate (life : Life ι) (host : η) (op : Operation ι) : Life ι × η :=
  match life.list? with
  | none => (life, host)
  | some l =>
    let (l, host) := l.operate host op
    ({ life with list? := some l, ended := life.ended || op.unmounts }, host)

/-- Closes the list; nothing once it is closed. -/
def close (life : Life ι) (host : η) : Life ι × η :=
  match life.list? with
  | none => (life, host)
  | some l => ({ life with list? := none, ended := true }, l.close host)

/-- To unmount a list is to write what is due, whether it still has its listener or not. -/
theorem Sound.ledger_unmount (sound : life.Sound) {l : HostedList ι} (isOpen : life.list? = some l)
    (host : Audited η) : (l.unmount host).2.ledger = host.ledger ++ life.due := by
  have listener := sound.listener_eq isOpen
  unfold HostedList.unmount due
  cases ended : life.ended with
  | true =>
    rw [ended, if_pos rfl] at listener
    rw [listener]
    exact (List.append_nil _).symm
  | false =>
    rw [ended, if_neg Bool.false_ne_true] at listener
    rw [listener]
    cases life.own with
    | none => exact (List.append_nil _).symm
    | some own => rfl

theorem turn_operate (sound : life.Sound) (host : Audited η) (op : Operation ι) :
    Turn op.unmounts life host (life.operate host op) := by
  unfold operate
  cases isOpen : life.list? with
  | none => exact sound.turn_of_closed isOpen op.unmounts host
  | some l =>
    refine ⟨rfl, rfl, ⟨?_, nofun⟩, ?_⟩
    · show (l.operate host op).1.listener = if life.ended || op.unmounts then none else life.own
      rw [HostedList.state_operate, Operation.listenerAfter_eq, sound.listener_eq isOpen]
      cases op.unmounts <;> cases life.ended <;> rfl
    · cases unmounts : op.unmounts with
      | false =>
        rw [if_neg Bool.false_ne_true, List.append_nil]
        exact HostedList.kept_operate Audited.ledger (fun _ _ => rfl) l host unmounts
      | true =>
        cases op with
        | unmount => exact sound.ledger_unmount isOpen host
        | _ => cases unmounts

theorem turn_close (sound : life.Sound) (host : Audited η) :
    Turn true life host (life.close host) := by
  unfold close
  cases isOpen : life.list? with
  | none => exact sound.turn_of_closed isOpen true host
  | some l =>
    refine ⟨rfl, (Bool.or_true _).symm, ⟨rfl, fun _ => rfl⟩, ?_⟩
    exact sound.ledger_unmount isOpen host

end Life

/-! ## Scenes -/

/-- A container and the lives of all lists that were ever mounted in it, in this order. -/
structure Scene (ι η : Type) where
  host : Audited η
  lives : List (Life ι) := []

/-- What can happen to a container and its lists. A list is named by its place among all
that were mounted. -/
inductive Event (ι η : Type) : Type 1 where
  /-- Some items are mounted if the configuration is accepted. -/
  | mount (items : Array ι) (config : Config)
  | mountRows (items : Array ι) (rows : Rows) (options : Options) (message : String)
  | operate (i : Nat) (op : Operation ι)
  | close (i : Nat)
  /-- The container changes by itself. -/
  | elapse (found : η)

/-- Whether the event ends the life of a list if it goes on. -/
def Event.ends {ι η : Type} (i : Nat) : Event ι η → Bool
  | operate j op => i == j && op.unmounts
  | close j => i == j
  | _ => false

namespace Scene

variable {ι η : Type} [Container η]

/-- A scene after a step in one of the lives. -/
def turn (s : Scene ι η) (i : Nat) (step : Life ι → Audited η → Life ι × Audited η) :
    Scene ι η :=
  match s.lives[i]? with
  | none => s
  | some life =>
    let (life, host) := step life s.host
    { host, lives := s.lives.set i life }

/-- A scene after an event. -/
def after (s : Scene ι η) : Event ι η → Scene ι η
  | .mount items config =>
    match HostedList.mount s.host items config with
    | (.error _, host) => { s with host }
    | (.ok l, host) => { host, lives := s.lives ++ [.mounted l] }
  | .mountRows items rows options message =>
    let (l, host) := HostedList.mountRows s.host items rows options message
    { host, lives := s.lives ++ [.mounted l] }
  | .operate i op => s.turn i fun life host => life.operate host op
  | .close i => s.turn i Life.close
  | .elapse found => { s with host := { s.host with host := found } }

/-- A scene after some events. -/
def run (s : Scene ι η) (events : List (Event ι η)) : Scene ι η := events.foldl after s

/-- The listener that the container gives next. -/
def next (s : Scene ι η) : Listener := (Container.subscribe s.host.host).1

/-- The entries that are due when an event happens: a listener for a list that is mounted,
none for a refused configuration, and the listener of a list that is unmounted or closed. -/
def due (s : Scene ι η) : Event ι η → Ledger
  | .mount items config =>
    match (HostedList.mount s.host items config).1 with
    | .error _ => []
    | .ok _ => [.subscribed s.next]
  | .mountRows .. => [.subscribed s.next]
  | .operate i op => if op.unmounts then (s.lives[i]?.map Life.due).getD [] else []
  | .close i => (s.lives[i]?.map Life.due).getD []
  | .elapse _ => []

/-- The container gives no listener a second time, whatever happens. -/
def FreshAlong (s : Scene ι η) : List (Event ι η) → Prop
  | [] => True
  | event :: events => s.next ∉ s.host.ledger.given ∧ (s.after event).FreshAlong events

instance decidableFreshAlong : (s : Scene ι η) → (events : List (Event ι η)) →
    Decidable (s.FreshAlong events)
  | _, [] => .isTrue trivial
  | s, event :: events =>
    haveI := decidableFreshAlong (s.after event) events
    inferInstanceAs (Decidable (_ ∧ _))

/-! ## The invariant -/

/-- The ledger of the container and the lives of the lists tell the same. -/
structure Balanced (s : Scene ι η) : Prop where
  sound : ∀ life ∈ s.lives, life.Sound
  given_eq : s.host.ledger.given.map some = s.lives.map Life.own
  nodup : s.host.ledger.given.Nodup
  returned_perm : s.host.ledger.returned.Perm (s.lives.filterMap Life.returned)
  registered_perm : s.host.ledger.registered.Perm (s.lives.filterMap Life.held)

end Scene

/-! ## What the balance says -/

namespace Scene

variable {ι η : Type} {s : Scene ι η} {life : Life ι}

theorem Balanced.exists_own (balanced : s.Balanced) (mem : life ∈ s.lives) :
    ∃ own, life.own = some own := by
  have own : life.own ∈ s.host.ledger.given.map some :=
    balanced.given_eq ▸ List.mem_map_of_mem mem
  obtain ⟨own, _, same⟩ := List.mem_map.mp own
  exact ⟨own, same.symm⟩

/-- No two lists have the same listener. -/
theorem Balanced.eq_of_own_eq (balanced : s.Balanced) {other : Life ι} (mem : life ∈ s.lives)
    (listed : other ∈ s.lives) (same : life.own = other.own) : life = other := by
  have distinct : (s.lives.map Life.own).Nodup :=
    balanced.given_eq ▸ balanced.nodup.map (Option.some_injective Listener)
  exact List.inj_on_of_nodup_map distinct mem listed same

theorem Balanced.mem_returned_iff (balanced : s.Balanced) {own : Listener} :
    own ∈ s.host.ledger.returned ↔ ∃ life ∈ s.lives, life.ended ∧ life.own = some own := by
  rw [balanced.returned_perm.mem_iff, List.mem_filterMap]
  simp only [Life.returned_eq_some_iff]

theorem Balanced.nodup_returned (balanced : s.Balanced) : s.host.ledger.returned.Nodup := by
  have given : s.lives.filterMap Life.own = s.host.ledger.given := by
    have mapped := congrArg (List.filterMap id) balanced.given_eq.symm
    simpa only [List.filterMap_map, Function.id_comp, List.filterMap_some] using mapped
  have returned : s.lives.filterMap Life.returned =
      (s.lives.filter Life.ended).filterMap Life.own := List.filterMap_filter.symm
  have part : ((s.lives.filter Life.ended).filterMap Life.own).Sublist s.host.ledger.given :=
    given ▸ List.filter_sublist.filterMap Life.own
  rw [balanced.returned_perm.nodup_iff, returned]
  exact balanced.nodup.sublist part

/-- A list whose life has ended gave its listener back once, and the others did not. -/
theorem Balanced.count_returned (balanced : s.Balanced) (mem : life ∈ s.lives) {own : Listener}
    (known : life.own = some own) :
    s.host.ledger.returned.count own = if life.ended then 1 else 0 := by
  split
  · next ended =>
    have there := balanced.mem_returned_iff.mpr ⟨life, mem, ended, known⟩
    exact List.count_eq_one_of_mem balanced.nodup_returned there
  · next goes =>
    refine List.count_eq_zero.mpr fun there => goes ?_
    obtain ⟨other, listed, ended, same⟩ := balanced.mem_returned_iff.mp there
    rwa [balanced.eq_of_own_eq mem listed (known.trans same.symm)]

/-- A list is mounted until its life ends. -/
theorem Balanced.isMounted_iff (balanced : s.Balanced) (mem : life ∈ s.lives) {l : HostedList ι}
    (isOpen : life.list? = some l) : l.isMounted ↔ ¬life.ended := by
  obtain ⟨own, known⟩ := balanced.exists_own mem
  unfold HostedList.isMounted
  rw [(balanced.sound life mem).listener_eq isOpen, known]
  cases life.ended <;> simp

theorem Balanced.registered_of_closed (balanced : s.Balanced)
    (closed : ∀ life ∈ s.lives, life.list? = none) : s.host.ledger.registered = [] := by
  have none : s.lives.filterMap Life.held = [] := by
    refine List.filterMap_eq_nil_iff.mpr fun life mem => ?_
    rw [Life.held, closed life mem]
    rfl
  exact (none ▸ balanced.registered_perm).eq_nil

end Scene

/-! ## One event -/

/-- One more element that is answered for is one more answer. -/
theorem perm_filterMap_gain {α β : Type} {f : α → Option β} {a a' : α} {b : β}
    (without : f a = none) (answer : f a' = some b) (pre post : List α) :
    ((pre ++ a' :: post).filterMap f).Perm (b :: (pre ++ a :: post).filterMap f) := by
  rw [List.filterMap_append, List.filterMap_append, List.filterMap_cons_some answer,
    List.filterMap_cons_none without]
  exact List.perm_middle

theorem filterMap_replace {α β : Type} {f : α → Option β} {a a' : α} (same : f a' = f a)
    (pre post : List α) :
    (pre ++ a' :: post).filterMap f = (pre ++ a :: post).filterMap f := by
  rw [List.filterMap_append, List.filterMap_append, List.filterMap_cons, List.filterMap_cons, same]

namespace Scene

variable {ι η : Type} {s : Scene ι η}

/-- A step in one life keeps the balance. When the life ends, its listener goes from the
registered listeners to the returned ones. -/
theorem Balanced.replace (balanced : s.Balanced) {pre post : List (Life ι)} {life : Life ι}
    (lives : s.lives = pre ++ life :: post) {ends : Bool} {step : Life ι × Audited η}
    (turn : life.Turn ends s.host step) :
    Balanced { host := step.2, lives := pre ++ step.1 :: post } := by
  have mem : life ∈ s.lives := lives ▸ List.mem_append_right pre List.mem_cons_self
  have before := balanced.sound life mem
  obtain ⟨own, known⟩ := balanced.exists_own mem
  obtain ⟨sound, given, nodup, returned, registered⟩ := balanced
  rw [lives] at sound given returned registered
  have sound' : ∀ other ∈ pre ++ step.1 :: post, other.Sound := by
    rw [List.forall_mem_append, List.forall_mem_cons] at sound ⊢
    exact ⟨sound.1, turn.sound, sound.2.2⟩
  have owns : (pre ++ step.1 :: post).map Life.own = (pre ++ life :: post).map Life.own := by
    rw [List.map_append, List.map_append, List.map_cons, List.map_cons, turn.own_eq]
  rcases turn.stays_or_ends before known with
    ⟨held, back, ledger⟩ | ⟨held, held', back, back', ledger⟩
  · -- The life goes on, or had ended before.
    refine ⟨sound', ?_, ?_, ?_, ?_⟩
    · rw [ledger, owns, given]
    · rw [ledger]
      exact nodup
    · rw [ledger, filterMap_replace back]
      exact returned
    · rw [ledger, filterMap_replace held]
      exact registered
  · -- The life ends: its listener leaves one list for the other.
    refine ⟨sound', ?_, ?_, ?_, ?_⟩
    · rw [ledger, Ledger.given_unsubscribed, owns, given]
    · rw [ledger, Ledger.given_unsubscribed]
      exact nodup
    · rw [ledger, Ledger.returned_unsubscribed]
      calc (s.host.ledger.returned ++ [own]).Perm (own :: s.host.ledger.returned) :=
            List.perm_append_singleton own _
        List.Perm _ (own :: (pre ++ life :: post).filterMap Life.returned) := returned.cons own
        List.Perm _ ((pre ++ step.1 :: post).filterMap Life.returned) :=
            (perm_filterMap_gain back back' pre post).symm
    · rw [ledger, Ledger.registered_unsubscribed]
      have had := registered.trans (perm_filterMap_gain held' held pre post)
      have left := had.erase own
      rwa [List.erase_cons_head] at left

/-- A list that was mounted is one more life. -/
theorem Balanced.mounted (balanced : s.Balanced) {own : Listener}
    (fresh : own ∉ s.host.ledger.given) {l : HostedList ι} (listener : l.listener = some own)
    {host : Audited η} (ledger : host.ledger = s.host.ledger ++ [.subscribed own]) :
    Balanced { host, lives := s.lives ++ [Life.mounted l] } := by
  obtain ⟨sound, given, nodup, returned, registered⟩ := balanced
  refine ⟨?_, ?_, ?_, ?_, ?_⟩
  · rw [List.forall_mem_append, List.forall_mem_singleton]
    exact ⟨sound, Life.sound_mounted l⟩
  · rw [ledger, Ledger.given_subscribed, List.map_append, List.map_append, given]
    exact congrArg (_ ++ [·]) listener.symm
  · rw [ledger, Ledger.given_subscribed]
    exact List.concat_eq_append ▸ nodup.concat fresh
  · rw [ledger, Ledger.returned_subscribed, List.filterMap_append]
    exact returned.trans (.of_eq (List.append_nil _).symm)
  · rw [ledger, Ledger.registered_subscribed, List.filterMap_append]
    exact registered.append (.of_eq (by simp [Life.mounted, Life.held, listener]))

/-- A step in a life writes what is due. -/
theorem Balanced.turn (balanced : s.Balanced) (i : Nat) {ends : Bool}
    {step : Life ι → Audited η → Life ι × Audited η}
    (turns : ∀ life : Life ι, life.Sound → life.Turn ends s.host (step life s.host)) :
    (s.turn i step).Balanced ∧ (s.turn i step).host.ledger =
      s.host.ledger ++ if ends then (s.lives[i]?.map Life.due).getD [] else [] := by
  unfold Scene.turn
  cases found : s.lives[i]? with
  | none => exact ⟨balanced, by simp⟩
  | some life =>
    obtain ⟨inside, rfl⟩ := List.getElem?_eq_some_iff.mp found
    have turn := turns s.lives[i] (balanced.sound _ (List.getElem_mem inside))
    have parts : ∃ pre post, s.lives = pre ++ s.lives[i] :: post ∧ pre.length = i ∧
        s.lives.set i (step s.lives[i] s.host).1 = pre ++ (step s.lives[i] s.host).1 :: post :=
      List.exists_of_set inside
    obtain ⟨pre, post, lives, _, set⟩ := parts
    refine ⟨?_, turn.ledger_eq⟩
    show Balanced { host := _, lives := s.lives.set i _ }
    rw [set]
    exact balanced.replace lives turn

/-- A step in a life leaves the other lives as they are. -/
theorem Balanced.getElem?_turn (balanced : s.Balanced) (i : Nat) {ends : Bool}
    {step : Life ι → Audited η → Life ι × Audited η}
    (turns : ∀ life : Life ι, life.Sound → life.Turn ends s.host (step life s.host)) {j : Nat}
    {life : Life ι} (found : s.lives[j]? = some life) :
    ∃ next, (s.turn i step).lives[j]? = some next ∧ next.own = life.own ∧
      next.ended = (life.ended || (j == i && ends)) := by
  obtain ⟨inside, rfl⟩ := List.getElem?_eq_some_iff.mp found
  unfold Scene.turn
  by_cases same : j = i
  · subst same
    have turn := turns s.lives[j] (balanced.sound _ (List.getElem_mem inside))
    rw [found, beq_self_eq_true, Bool.true_and]
    exact ⟨_, List.getElem?_set_self inside, turn.own_eq, turn.ended_eq⟩
  · have stays : s.lives[j].ended = (s.lives[j].ended || (j == i && ends)) := by
      rw [beq_false_of_ne same, Bool.false_and, Bool.or_false]
    cases s.lives[i]? with
    | none => exact ⟨_, found, rfl, stays⟩
    | some life => exact ⟨_, (List.getElem?_set_ne (Ne.symm same)).trans found, rfl, stays⟩

variable [Container η]

/-- To mount by a configuration is to mount with some rows, or nothing at all. -/
theorem after_mount (s : Scene ι η) (items : Array ι) (config : Config) :
    (s.after (.mount items config) = s ∧ s.due (.mount items config) = []) ∨
    ∃ rows options message,
      s.after (.mount items config) = s.after (.mountRows items rows options message) ∧
      s.due (.mount items config) = [.subscribed s.next] := by
  cases attempt : HostedList.mount s.host items config with
  | mk result host =>
    cases result with
    | error e =>
      left
      simp only [after, due, attempt, HostedList.mount_eq_error attempt, and_self]
    | ok l =>
      right
      obtain ⟨rows, options, _, _, rfl, rfl⟩ := HostedList.mount_eq_mountRows attempt
      exact ⟨rows, options, config.emptyMessage, by simp only [after, attempt],
        by simp only [due, attempt]⟩

theorem Balanced.ledger_after (balanced : s.Balanced) (event : Event ι η) :
    (s.after event).host.ledger = s.host.ledger ++ s.due event := by
  cases event with
  | mount items config =>
    rcases s.after_mount items config with ⟨same, due⟩ | ⟨rows, options, message, same, due⟩
    · rw [same, due, List.append_nil]
    · rw [same, due]
      rfl
  | mountRows items rows options message => rfl
  | operate i op =>
    exact (balanced.turn i fun life sound => Life.turn_operate sound s.host op).2
  | close i => exact (balanced.turn i fun life sound => Life.turn_close sound s.host).2
  | elapse found => exact (List.append_nil _).symm

theorem Balanced.after (balanced : s.Balanced) (fresh : s.next ∉ s.host.ledger.given)
    (event : Event ι η) : (s.after event).Balanced := by
  have mounts (items rows options message) :
      (s.after (.mountRows items rows options message)).Balanced :=
    balanced.mounted fresh rfl rfl
  cases event with
  | mount items config =>
    rcases s.after_mount items config with ⟨same, _⟩ | ⟨rows, options, message, same, _⟩
    · rw [same]
      exact balanced
    · rw [same]
      exact mounts items rows options message
  | mountRows items rows options message => exact mounts items rows options message
  | operate i op =>
    show (s.turn i fun life host => life.operate host op).Balanced
    exact (balanced.turn i fun life sound => Life.turn_operate sound s.host op).1
  | close i => exact (balanced.turn i fun life sound => Life.turn_close sound s.host).1
  | elapse found =>
    exact
      { sound := balanced.sound
        given_eq := balanced.given_eq
        nodup := balanced.nodup
        returned_perm := balanced.returned_perm
        registered_perm := balanced.registered_perm }

/-- The lives go on side by side, and each of them ends when its own list is unmounted or
closed. -/
theorem Balanced.getElem?_after (balanced : s.Balanced) (event : Event ι η) {i : Nat}
    {life : Life ι} (found : s.lives[i]? = some life) :
    ∃ next, (s.after event).lives[i]? = some next ∧ next.own = life.own ∧
      next.ended = (life.ended || event.ends i) := by
  have goes : life.ended = (life.ended || false) := (Bool.or_false _).symm
  have mounts (items rows options message) :
      (s.after (.mountRows items rows options message)).lives[i]? = some life :=
    (List.getElem?_append_left (List.getElem?_eq_some_iff.mp found).1).trans found
  cases event with
  | mount items config =>
    rcases s.after_mount items config with ⟨same, _⟩ | ⟨rows, options, message, same, _⟩
    · rw [same]
      exact ⟨life, found, rfl, goes⟩
    · rw [same]
      exact ⟨life, mounts items rows options message, rfl, goes⟩
  | mountRows items rows options message =>
    exact ⟨life, mounts items rows options message, rfl, goes⟩
  | operate j op =>
    exact balanced.getElem?_turn j (fun life sound => Life.turn_operate sound s.host op) found
  | close j =>
    obtain ⟨next, there, own, ended⟩ :=
      balanced.getElem?_turn j (fun life sound => Life.turn_close sound s.host) found
    exact ⟨next, there, own, ended.trans (by rw [Bool.and_true]; rfl)⟩
  | elapse container => exact ⟨life, found, rfl, goes⟩

/-! ## Runs -/

theorem balanced_run (balanced : s.Balanced) {events : List (Event ι η)}
    (fresh : s.FreshAlong events) : (s.run events).Balanced := by
  induction events generalizing s with
  | nil => exact balanced
  | cons event events ih => exact ih (balanced.after fresh.1 event) fresh.2

/-- A container with no list. -/
def start (ι : Type) (host : η) : Scene ι η := { host := { host } }

omit [Container η] in
theorem balanced_start (host : η) : (start ι host).Balanced := ⟨nofun, rfl, .nil, .nil, .nil⟩

/-- All that a container can rely on. -/
structure GivesBack (s : Scene ι η) : Prop where
  /-- Whatever happens next, what is due is written into the ledger and nothing else. -/
  ledger_after : ∀ event, (s.after event).host.ledger = s.host.ledger ++ s.due event
  /-- The life of a list ends when the list is unmounted or closed, and never goes on again. -/
  life_after : ∀ event i life, s.lives[i]? = some life →
    ∃ next, (s.after event).lives[i]? = some next ∧ next.own = life.own ∧
      next.ended = (life.ended || event.ends i)
  /-- Every list was given one listener, its own. -/
  given_eq : s.host.ledger.given.map some = s.lives.map Life.own
  nodup : s.host.ledger.given.Nodup
  /-- It was given back once if the life has ended, and not at all if it goes on. -/
  count_returned : ∀ life ∈ s.lives, ∀ own, life.own = some own →
    s.host.ledger.returned.count own = if life.ended then 1 else 0
  own_of_returned : ∀ own ∈ s.host.ledger.returned,
    ∃ life ∈ s.lives, life.ended ∧ life.own = some own
  /-- The registered listeners are those of the lists that are still mounted. -/
  registered_perm : s.host.ledger.registered.Perm (s.lives.filterMap Life.held)
  isMounted_iff : ∀ life ∈ s.lives, ∀ l, life.list? = some l → (l.isMounted ↔ ¬life.ended)
  registered_of_closed :
    (∀ life ∈ s.lives, life.list? = none) → s.host.ledger.registered = []
  ended_of_closed : ∀ life ∈ s.lives, life.list? = none → life.ended
  /-- A list whose life has ended ignores all events. -/
  receive_of_ended : ∀ life ∈ s.lives, ∀ l, life.list? = some l → life.ended →
    ∀ event, l.receive event = ⟨l, none, []⟩

theorem Balanced.givesBack (balanced : s.Balanced) : s.GivesBack where
  ledger_after := balanced.ledger_after
  life_after := fun event _ _ found => balanced.getElem?_after event found
  given_eq := balanced.given_eq
  nodup := balanced.nodup
  count_returned := fun _ mem _ known => balanced.count_returned mem known
  own_of_returned := fun _ => balanced.mem_returned_iff.mp
  registered_perm := balanced.registered_perm
  isMounted_iff := fun _ mem _ isOpen => balanced.isMounted_iff mem isOpen
  registered_of_closed := balanced.registered_of_closed
  ended_of_closed := fun life mem => (balanced.sound life mem).ended_of_closed
  receive_of_ended := fun life mem l isOpen ended event => by
    have unmounted : ¬l.isMounted := fun mounted =>
      (balanced.isMounted_iff mem isOpen).mp mounted ended
    exact HostedList.receive_of_unmounted (Option.not_isSome_iff_eq_none.mp unmounted) event

/-- Whatever happens to a container that gives no listener twice, every list that is mounted
takes one listener and gives it back once. -/
theorem run_givesBack (host : η) (events : List (Event ι η))
    (fresh : (start ι host).FreshAlong events) : ((start ι host).run events).GivesBack :=
  (balanced_run (balanced_start host) fresh).givesBack

end Scene

/-- A refused configuration, and two lists: one is unmounted twice before it is closed, the
other is only closed. -/
def twoLives : List (Event Nat PlainHost) :=
  [.mount (Array.range 3) { rowHeight := some 0 },
    .mount (Array.range 10) { rowHeight := some 65 },
    .operate 0 (.reveal 5 .top),
    .mount (Array.range 10) { estimatedHeight := some 48 },
    .operate 0 .unmount,
    .operate 0 .unmount,
    .operate 0 (.receive (.scroll (.ofNat 100) 0)),
    .close 0,
    .close 1]

theorem run_givesBack_twoLives :
    let s := (Scene.start Nat { height := .ofNat 600 }).run twoLives
    s.GivesBack ∧ s.host.ledger = [.subscribed ⟨1⟩, .subscribed ⟨2⟩, .unsubscribed ⟨1⟩,
      .unsubscribed ⟨2⟩] ∧ s.host.ledger.registered = [] ∧ s.host.host.listeners = [] := by
  intro s
  have fresh : (Scene.start Nat ({ height := .ofNat 600 } : PlainHost)).FreshAlong twoLives := by
    decide +kernel
  refine ⟨Scene.run_givesBack _ _ fresh, ?_⟩
  decide +kernel

end Windowing
