import Rchan.System.EventLoop

namespace Rchan

/-!
# What a call of the event loop keeps

A `Discipline` says what the functions of the rules do to a property of the rules and
the world: what a callback may rely on when it is called, and what a rule that is
erased leaves to the others.  A callback runs after the interest of its rule has been
tested, and between the test and the callback other rules may have been cancelled, so
it relies on a property `ready` of its own that such cancellations keep.  A rule that
was not interested leaves a property `idle`, which is what is known when the loop
finds nothing to poll.  Since a call serves at most one rule, what holds before the
service, `holds`, and what is left after it, `done`, may be different properties.

`waitNextEvent_keeps` is the invariant rule for one call; a program with an event loop
proves its discipline and never looks at the loop again.
-/

variable {World : Type}

namespace Kernel

/-- The system answers a poll and reports these events for a descriptor. -/
def Reports (kernel : Kernel) (pollfd : PollFd) (events : Revents) : Prop :=
  ∃ fds answer index, kernel.poll fds = .ok answer ∧ fds[index]? = some pollfd ∧
    answer.revents index = events

def HangsUp (kernel : Kernel) (fd : Nat) : Prop :=
  ∃ pollfd events, kernel.Reports pollfd events ∧ pollfd.fd = fd ∧ events.pollhup = true

/-- A poll reports a hang-up that ends a rule of the direction.  A descriptor that is still
readable is not cut off from the rules that read it. -/
def Severs (kernel : Kernel) (fd : Nat) (direction : Direction) : Prop :=
  ∃ pollfd events, kernel.Reports pollfd events ∧ pollfd.fd = fd ∧
    (∀ event, pollfd.events = some event → event = direction) ∧
    pollfd.hungUp events direction = true

theorem Severs.hangsUp {kernel : Kernel} {fd : Nat} {direction : Direction}
    (severs : kernel.Severs fd direction) : kernel.HangsUp fd := by
  rcases severs with ⟨pollfd, events, reports, number, -, hangUp⟩
  exact ⟨pollfd, events, reports, number, (Bool.and_eq_true_iff.mp hangUp).1⟩

def Fails (kernel : Kernel) (fd : Nat) : Prop :=
  ∃ pollfd events, kernel.Reports pollfd events ∧ pollfd.fd = fd ∧
    (events.pollerr || events.pollnval) = true

def Offers (kernel : Kernel) (fd : Nat) (direction : Direction) : Prop :=
  ∃ pollfd events, kernel.Reports pollfd events ∧ pollfd.fd = fd ∧
    pollfd.events = some direction ∧ pollfd.ready events = true

/-- The calls that a poll has announced succeed, and so do those that need no
announcement. -/
structure Truthful (kernel : Kernel) : Prop where
  polls : ∀ fds, ∃ answer, kernel.poll fds = .ok answer
  sockets : ∀ fd, EventLoop.checkSocketError kernel fd = .ok ()
  reads : ∀ fd, kernel.Offers fd .incoming → ∀ size, 0 < size →
    ∃ bytes, kernel.read fd size = .ok bytes ∧ bytes.length ≤ size
  writes : ∀ fd, kernel.Offers fd .outgoing → ∀ buffer, buffer ≠ [] →
    ∃ written, kernel.write fd buffer = .ok written ∧ 0 < written ∧ written ≤ buffer.length
  shutdowns : ∀ fd, ∃ value, kernel.shutdown fd .wr = .ok value
  closes : ∀ fd, ∃ value, kernel.close fd = .ok value

/-- A system on which everything is always ready; reads are answered with `data`. -/
def eager (data : List Byte) : Kernel where
  poll _ := .ok { count := 1, revents := fun _ => { pollin := true, pollout := true } }
  getsockopt _ := .found 0
  read _ size := .ok (data.take size)
  write _ buffer := .ok buffer.length
  shutdown _ _ := .ok 0
  close _ := .ok 0

variable {data : List Byte}

theorem eager_reports {pollfd : PollFd} {events : Revents}
    (reports : (eager data).Reports pollfd events) :
    events = { pollin := true, pollout := true } := by
  rcases reports with ⟨fds, answer, index, answered, -, rfl⟩
  rw [← Except.ok.inj answered]

theorem not_fails_eager (data : List Byte) (fd : Nat) : ¬ (eager data).Fails fd := by
  rintro ⟨pollfd, events, reports, -, trouble⟩
  rw [eager_reports reports] at trouble
  cases trouble

theorem not_hangsUp_eager (data : List Byte) (fd : Nat) : ¬ (eager data).HangsUp fd := by
  rintro ⟨pollfd, events, reports, -, hangUp⟩
  rw [eager_reports reports] at hangUp
  cases hangUp

theorem eager_truthful (data : List Byte) : (eager data).Truthful where
  polls := fun _ => ⟨_, rfl⟩
  sockets := fun _ => rfl
  reads := fun _ _ size _ => ⟨_, rfl, List.length_take_le size data⟩
  writes := fun _ _ _ nonempty =>
    ⟨_, rfl, List.length_pos_iff.mpr nonempty, Nat.le_refl _⟩
  shutdowns := fun _ => ⟨_, rfl⟩
  closes := fun _ => ⟨_, rfl⟩

end Kernel

namespace FDRule

/-- No rule of the category is left. -/
def Absent (category : Nat) (rules : List (FDRule World)) : Prop :=
  ∀ rule ∈ rules, rule.categoryId ≠ category

theorem Absent.of_erase {category : Nat} {before after : List (FDRule World)}
    (absent : Absent category (before ++ after)) (rule : FDRule World) :
    rule.categoryId = category ∨ Absent category (before ++ rule :: after) := by
  by_cases erased : rule.categoryId = category
  · exact Or.inl erased
  · refine Or.inr fun other member => ?_
    rcases List.mem_append.mp member with inside | inside
    · exact absent other (List.mem_append_left _ inside)
    · rcases List.mem_cons.mp inside with rfl | inside
      · exact erased
      · exact absent other (List.mem_append_right _ inside)

end FDRule

structure Discipline (kernel : Kernel) (number : FDRule World → Nat)
    (holds done : List (FDRule World) → World → Prop) (ready idle : FDRule World → World → Prop) :
    Prop where
  /-- The descriptor of a rule keeps its number. -/
  number_eq : ∀ {rules rule world}, holds rules world → rule ∈ rules →
    (rule.fd world).fd = number rule
  /-- An interested rule is ready. -/
  ready_of_interest : ∀ {rules rule world}, holds rules world → rule ∈ rules →
    rule.interest world = true → ready rule world
  /-- A rule that is not interested is idle. -/
  idle_of_not : ∀ {rules rule world}, holds rules world → rule ∈ rules →
    rule.interest world = false → idle rule world
  /-- A rule whose cancellation has been requested is erased. -/
  requested : ∀ {before rule after world}, holds (before ++ rule :: after) world →
    rule.cancelRequested = true → holds (before ++ after) world
  /-- A rule is cancelled while the descriptors are prepared. -/
  exhausted : ∀ {before rule after world}, holds (before ++ rule :: after) world →
    rule.exhausted world = true → holds (before ++ after) (rule.cancel world)
  /-- Such a cancellation leaves the earlier rules as they were found. -/
  exhausted_keeps : ∀ {before rule after earlier world}, holds (before ++ rule :: after) world →
    rule.exhausted world = true → earlier ∈ before →
    (ready earlier world → ready earlier (rule.cancel world)) ∧
      (idle earlier world → idle earlier (rule.cancel world))
  /-- A rule is cancelled after a hang-up. -/
  hungUp : ∀ {before rule after world}, holds (before ++ rule :: after) world →
    kernel.Severs (number rule) rule.direction → holds (before ++ after) (rule.cancel world)
  /-- Such a cancellation leaves the later rules ready. -/
  hungUp_keeps : ∀ {before rule after later world}, holds (before ++ rule :: after) world →
    later ∈ after → ready later world → ready later (rule.cancel world)
  /-- A rule is cancelled after an error. -/
  failed : ∀ {before rule after world}, holds (before ++ rule :: after) world →
    kernel.Fails (number rule) → holds (before ++ after) (rule.cancel (rule.error world))
  /-- Such a cancellation leaves the later rules ready. -/
  failed_keeps : ∀ {before rule after later world}, holds (before ++ rule :: after) world →
    later ∈ after → ready later world → ready later (rule.cancel (rule.error world))
  /-- A callback is called when its rule is ready and its event has been reported. -/
  served : ∀ {rules rule world after}, holds rules world → rule ∈ rules → ready rule world →
    kernel.Offers (number rule) rule.direction → rule.callback kernel world = .ok after →
    done rules after
  /-- No rule is served. -/
  unserved : ∀ {rules world}, holds rules world → done rules world

/-- A further property may rely on one that is already kept. -/
theorem Discipline.strengthen {kernel : Kernel} {number : FDRule World → Nat}
    {holds done : List (FDRule World) → World → Prop} {ready idle : FDRule World → World → Prop}
    (discipline : Discipline kernel number holds done ready idle)
    (further finished : List (FDRule World) → World → Prop)
    (requested : ∀ {before rule after world}, holds (before ++ rule :: after) world →
      further (before ++ rule :: after) world → rule.cancelRequested = true →
      further (before ++ after) world)
    (exhausted : ∀ {before rule after world}, holds (before ++ rule :: after) world →
      further (before ++ rule :: after) world → rule.exhausted world = true →
      further (before ++ after) (rule.cancel world))
    (hungUp : ∀ {before rule after world}, holds (before ++ rule :: after) world →
      further (before ++ rule :: after) world → kernel.Severs (number rule) rule.direction →
      further (before ++ after) (rule.cancel world))
    (failed : ∀ {before rule after world}, holds (before ++ rule :: after) world →
      further (before ++ rule :: after) world → kernel.Fails (number rule) →
      further (before ++ after) (rule.cancel (rule.error world)))
    (served : ∀ {rules rule world after}, holds rules world → further rules world →
      rule ∈ rules → ready rule world → kernel.Offers (number rule) rule.direction →
      rule.callback kernel world = .ok after → finished rules after)
    (unserved : ∀ {rules world}, holds rules world → further rules world → finished rules world) :
    Discipline kernel number (fun rules world => holds rules world ∧ further rules world)
      (fun rules world => done rules world ∧ finished rules world) ready idle where
  number_eq := fun kept => discipline.number_eq kept.1
  ready_of_interest := fun kept => discipline.ready_of_interest kept.1
  idle_of_not := fun kept => discipline.idle_of_not kept.1
  requested := fun kept asked => ⟨discipline.requested kept.1 asked, requested kept.1 kept.2 asked⟩
  exhausted := fun kept ended =>
    ⟨discipline.exhausted kept.1 ended, exhausted kept.1 kept.2 ended⟩
  exhausted_keeps := fun kept => discipline.exhausted_keeps kept.1
  hungUp := fun kept hup => ⟨discipline.hungUp kept.1 hup, hungUp kept.1 kept.2 hup⟩
  hungUp_keeps := fun kept => discipline.hungUp_keeps kept.1
  failed := fun kept fails => ⟨discipline.failed kept.1 fails, failed kept.1 kept.2 fails⟩
  failed_keeps := fun kept => discipline.failed_keeps kept.1
  served := fun kept member isReady offered called =>
    ⟨discipline.served kept.1 member isReady offered called,
      served kept.1 kept.2 member isReady offered called⟩
  unserved := fun kept => ⟨discipline.unserved kept.1, unserved kept.1 kept.2⟩

/-- What makes the calls of a loop succeed: the system answers, and the callback of a rule
that is ready and offered its event succeeds and makes progress. -/
structure Serviceable (kernel : Kernel) (number : FDRule World → Nat)
    (holds : List (FDRule World) → World → Prop) (ready : FDRule World → World → Prop) : Prop where
  polls : ∀ fds, ∃ answer, kernel.poll fds = .ok answer
  checks : ∀ fd, EventLoop.checkSocketError kernel fd = .ok ()
  serves : ∀ {rules rule world}, holds rules world → rule ∈ rules → ready rule world →
    kernel.Offers (number rule) rule.direction →
    ∃ after, rule.callback kernel world = .ok after ∧
      (rule.serviceCount world ≠ rule.serviceCount after ∨ (rule.fd after).closed = true ∨
        rule.interest after = false)

namespace EventLoop

/-- A rule that is polled for an event is polled for its own, and it is ready. -/
structure Waiting (number : FDRule World → Nat) (ready : FDRule World → World → Prop)
    (world : World) (entry : FDRule World × PollFd) : Prop where
  fd : entry.2.fd = number entry.1
  direction : ∀ event, entry.2.events = some event → event = entry.1.direction
  ready : ∀ event, entry.2.events = some event → ready entry.1 world

/-- A rule that is polled for no event is idle. -/
structure Settled (number : FDRule World → Nat) (ready idle : FDRule World → World → Prop)
    (world : World) (entry : FDRule World × PollFd) : Prop
    extends Waiting number ready world entry where
  idle : entry.2.events = none → idle entry.1 world

theorem prepare_sublist (rules : List (FDRule World)) (world : World) :
    ((prepare rules world).1.map Prod.fst).Sublist rules := by
  induction rules generalizing world with
  | nil => exact List.Sublist.refl _
  | cons rule rest ih =>
      rw [prepare]
      split
      · exact (ih world).cons rule
      · split
        · exact (ih _).cons rule
        · exact (ih world).cons_cons rule

theorem sweep_sublist {loop : EventLoop World} {kernel : Kernel} {revents : Nat → Revents}
    {index : Nat} {polled : List (FDRule World × PollFd)} {world : World}
    {result : List (FDRule World) × World}
    (returned : loop.sweep kernel revents index polled world = .ok result) :
    result.1.Sublist (polled.map Prod.fst) := by
  induction polled generalizing index world result with
  | nil =>
      rw [← Except.ok.inj returned]
      exact List.Sublist.refl _
  | cons entry rest ih =>
      rw [sweep] at returned
      split at returned
      · rcases Fallible.bind_eq_ok returned with ⟨_, _, returned⟩
        exact (ih returned).cons _
      · split at returned
        · exact (ih returned).cons _
        · split at returned
          · rcases Fallible.bind_eq_ok returned with ⟨served, _, returned⟩
            rw [← Fallible.pure_eq_ok returned]
            exact List.Sublist.refl _
          · rcases Fallible.bind_eq_ok returned with ⟨later, swept, returned⟩
            rw [← Fallible.pure_eq_ok returned]
            exact (ih swept).cons_cons _

section Kept

variable {kernel : Kernel} {number : FDRule World → Nat}
  {holds done : List (FDRule World) → World → Prop} {ready idle : FDRule World → World → Prop}

/-- The entry of a rule that has just been looked at. -/
theorem Settled.of_interest (discipline : Discipline kernel number holds done ready idle)
    {rules : List (FDRule World)} {rule : FDRule World} {world : World}
    (initially : holds rules world) (member : rule ∈ rules) :
    Settled number ready idle world (rule,
      { fd := (rule.fd world).fd
        events := if rule.interest world then some rule.direction else none }) := by
  cases interest : rule.interest world with
  | true => exact {
      fd := discipline.number_eq initially member
      direction := fun event same => (Option.some.inj same).symm
      ready := fun _ _ => discipline.ready_of_interest initially member interest
      idle := fun impossible => by cases impossible }
  | false => exact {
      fd := discipline.number_eq initially member
      direction := fun event impossible => by cases impossible
      ready := fun event impossible => by cases impossible
      idle := fun _ => discipline.idle_of_not initially member interest }

/-- The preparation cancels some rules and finds each of the others ready or idle.
The induction carries the rules that have been looked at. -/
theorem prepare_keeps (discipline : Discipline kernel number holds done ready idle)
    (rules : List (FDRule World)) (front : List (FDRule World × PollFd)) {world : World}
    (initially : holds (front.map Prod.fst ++ rules) world)
    (settled : ∀ entry ∈ front, Settled number ready idle world entry) :
    holds (front.map Prod.fst ++ (prepare rules world).1.map Prod.fst) (prepare rules world).2 ∧
      ∀ entry ∈ front ++ (prepare rules world).1,
        Settled number ready idle (prepare rules world).2 entry := by
  induction rules generalizing front world with
  | nil =>
      refine ⟨initially, ?_⟩
      rw [prepare, List.append_nil]
      exact settled
  | cons rule rest ih =>
      rw [prepare]
      by_cases asked : rule.cancelRequested = true
      · rw [if_pos asked]
        exact ih front (discipline.requested initially asked) settled
      · rw [if_neg asked]
        by_cases ended : rule.exhausted world = true
        · rw [if_pos ended]
          refine ih front (discipline.exhausted initially ended) fun entry member => ?_
          have kept := discipline.exhausted_keeps initially ended
            (List.mem_map_of_mem (f := Prod.fst) member)
          have before := settled entry member
          exact { before with
            ready := fun event asked => kept.1 (before.ready event asked)
            idle := fun unpolled => kept.2 (before.idle unpolled) }
        · rw [if_neg ended]
          have looked := Settled.of_interest discipline initially
            (List.mem_append_right _ List.mem_cons_self)
          generalize PollFd.mk _ _ = pollfd at looked ⊢
          have regrouped : holds ((front ++ [(rule, pollfd)]).map Prod.fst ++ rest) world := by
            rw [List.map_append, List.append_assoc]
            exact initially
          have extended : ∀ entry ∈ front ++ [(rule, pollfd)],
              Settled number ready idle world entry := by
            intro entry inside
            rcases List.mem_append.mp inside with old | new
            · exact settled entry old
            · rw [List.mem_singleton.mp new]
              exact looked
          have result := ih _ regrouped extended
          rw [List.map_append, List.append_assoc, List.append_assoc] at result
          exact result

/-- The events of a sweep have been reported for the polled descriptors. -/
def Reported (kernel : Kernel) (revents : Nat → Revents) (index : Nat)
    (polled : List (FDRule World × PollFd)) : Prop :=
  ∀ place entry, polled[place]? = some entry → kernel.Reports entry.2 (revents (index + place))

theorem Reported.head {revents : Nat → Revents} {index : Nat} {entry : FDRule World × PollFd}
    {rest : List (FDRule World × PollFd)} (reported : Reported kernel revents index (entry :: rest)) :
    kernel.Reports entry.2 (revents index) :=
  reported 0 entry rfl

theorem Reported.tail {revents : Nat → Revents} {index : Nat} {entry : FDRule World × PollFd}
    {rest : List (FDRule World × PollFd)} (reported : Reported kernel revents index (entry :: rest)) :
    Reported kernel revents (index + 1) rest := by
  intro place other found
  have shifted := reported (place + 1) other found
  have position : index + (place + 1) = index + 1 + place := by omega
  rwa [position] at shifted

theorem ready_isSome {pollfd : PollFd} {events : Revents} (pollReady : pollfd.ready events = true) :
    ∃ event, pollfd.events = some event := by
  cases asked : pollfd.events with
  | none => simp [PollFd.ready, asked] at pollReady
  | some event => exact ⟨event, rfl⟩

/-- The later rules of a sweep after a rule that has been erased. -/
theorem Waiting.later {world after : World} {entry : FDRule World × PollFd}
    {rest : List (FDRule World × PollFd)}
    (waiting : ∀ other ∈ entry :: rest, Waiting number ready world other)
    (keeps : ∀ {later}, later ∈ rest.map Prod.fst → ready later world → ready later after) :
    ∀ other ∈ rest, Waiting number ready after other := by
  intro other member
  have before := waiting other (List.mem_cons_of_mem _ member)
  exact { before with
    ready := fun event asked => keeps (List.mem_map_of_mem member) (before.ready event asked) }

/-- The event that a rule is polled for has been offered. -/
theorem Waiting.offers {world : World} {entry : FDRule World × PollFd} {events : Revents}
    {event : Direction} (waiting : Waiting number ready world entry)
    (reports : kernel.Reports entry.2 events) (asked : entry.2.events = some event)
    (pollReady : entry.2.ready events = true) :
    kernel.Offers (number entry.1) entry.1.direction :=
  ⟨_, _, reports, waiting.fd, asked.trans (congrArg some (waiting.direction event asked)), pollReady⟩

/-- The sweep cancels some rules and serves at most one, which is ready. -/
theorem sweep_keeps (discipline : Discipline kernel number holds done ready idle)
    {loop : EventLoop World} {revents : Nat → Revents} {index : Nat}
    {polled : List (FDRule World × PollFd)} (front : List (FDRule World)) {world : World}
    {result : List (FDRule World) × World}
    (initially : holds (front ++ polled.map Prod.fst) world)
    (waiting : ∀ entry ∈ polled, Waiting number ready world entry)
    (reported : Reported kernel revents index polled)
    (returned : loop.sweep kernel revents index polled world = .ok result) :
    done (front ++ result.1) result.2 := by
  induction polled generalizing index front world result with
  | nil =>
      rw [← Except.ok.inj returned]
      exact discipline.unserved initially
  | cons entry rest ih =>
      rcases entry with ⟨rule, pollfd⟩
      have event := reported.head
      have own : Waiting number ready world (rule, pollfd) := waiting _ List.mem_cons_self
      rw [sweep] at returned
      split at returned
      · rename_i trouble
        rcases Fallible.bind_eq_ok returned with ⟨_, _, returned⟩
        exact ih front (discipline.failed initially ⟨_, _, event, own.fd, trouble⟩)
          (Waiting.later waiting (discipline.failed_keeps initially)) reported.tail returned
      · split at returned
        · rename_i hangUp
          exact ih front (discipline.hungUp initially ⟨_, _, event, own.fd, own.direction, hangUp⟩)
            (Waiting.later waiting (discipline.hungUp_keeps initially)) reported.tail returned
        · split at returned
          · rename_i pollReady
            rcases ready_isSome pollReady with ⟨direction, asked⟩
            rcases Fallible.bind_eq_ok returned with ⟨served, serving, returned⟩
            rw [← Fallible.pure_eq_ok returned]
            rcases Fallible.bind_eq_ok serving with ⟨after, called, passed⟩
            have same : after = served := by
              split at passed
              · cases passed
              · exact Fallible.pure_eq_ok passed
            rw [same] at called
            exact discipline.served initially (List.mem_append_right _ List.mem_cons_self)
              (own.ready direction asked) (own.offers event asked pollReady) called
          · rcases Fallible.bind_eq_ok returned with ⟨swept, sweeping, returned⟩
            rw [← Fallible.pure_eq_ok returned]
            have regrouped : holds ((front ++ [rule]) ++ rest.map Prod.fst) world := by
              rw [List.append_assoc]
              exact initially
            have result := ih (front ++ [rule]) regrouped
              (fun other member => waiting other (List.mem_cons_of_mem _ member)) reported.tail
              sweeping
            rw [List.append_assoc] at result
            exact result

/-- A rule that is ready and offered its event is served. -/
theorem serve_returns (serviceable : Serviceable kernel number holds ready) (loop : EventLoop World)
    {rules : List (FDRule World)} {rule : FDRule World} {world : World}
    (initially : holds rules world) (member : rule ∈ rules) (isReady : ready rule world)
    (offered : kernel.Offers (number rule) rule.direction) :
    ∃ after, loop.serve kernel rule world = .ok after := by
  rcases serviceable.serves initially member isReady offered with ⟨after, called, progress⟩
  refine ⟨after, ?_⟩
  rw [serve, Fallible.bind_of_ok called, if_neg]
  · rfl
  · simp only [Bool.and_eq_true, decide_eq_true_eq, Bool.not_eq_true', not_and, Bool.not_eq_true]
    rintro ⟨same, isOpen⟩
    rcases progress with moved | closed | uninterested
    · exact absurd same moved
    · rw [isOpen] at closed
      cases closed
    · exact uninterested

/-- A serviceable loop gets through the sweep. -/
theorem sweep_returns (discipline : Discipline kernel number holds done ready idle)
    (serviceable : Serviceable kernel number holds ready) (loop : EventLoop World)
    {revents : Nat → Revents} {index : Nat} {polled : List (FDRule World × PollFd)}
    (front : List (FDRule World)) {world : World}
    (initially : holds (front ++ polled.map Prod.fst) world)
    (waiting : ∀ entry ∈ polled, Waiting number ready world entry)
    (reported : Reported kernel revents index polled) :
    ∃ result, loop.sweep kernel revents index polled world = .ok result := by
  induction polled generalizing index front world with
  | nil => exact ⟨_, rfl⟩
  | cons entry rest ih =>
      rcases entry with ⟨rule, pollfd⟩
      have event := reported.head
      have own : Waiting number ready world (rule, pollfd) := waiting _ List.mem_cons_self
      rw [sweep]
      split
      · rename_i trouble
        rw [Fallible.bind_of_ok (serviceable.checks _)]
        exact ih front (discipline.failed initially ⟨_, _, event, own.fd, trouble⟩)
          (Waiting.later waiting (discipline.failed_keeps initially)) reported.tail
      · split
        · rename_i hangUp
          exact ih front (discipline.hungUp initially ⟨_, _, event, own.fd, own.direction, hangUp⟩)
            (Waiting.later waiting (discipline.hungUp_keeps initially)) reported.tail
        · split
          · rename_i pollReady
            rcases ready_isSome pollReady with ⟨direction, asked⟩
            rcases serve_returns serviceable loop initially
              (List.mem_append_right _ List.mem_cons_self) (own.ready direction asked)
              (own.offers event asked pollReady) with ⟨after, passes⟩
            rw [Fallible.bind_of_ok passes]
            exact ⟨_, rfl⟩
          · have regrouped : holds ((front ++ [rule]) ++ rest.map Prod.fst) world := by
              rw [List.append_assoc]
              exact initially
            rcases ih (front ++ [rule]) regrouped
              (fun other member => waiting other (List.mem_cons_of_mem _ member)) reported.tail with
              ⟨swept, sweeping⟩
            rw [Fallible.bind_of_ok sweeping]
            exact ⟨_, rfl⟩

theorem serveWhileInterested_keeps {holds : World → Prop} {loop : EventLoop World}
    {rule : BasicRule World}
    (served : ∀ world after, holds world → rule.interest world = true →
      rule.callback kernel world = .ok after → holds after)
    {iterations : Nat} {world after : World} (initially : holds world)
    (returned : loop.serveWhileInterested kernel rule iterations world = .ok after) :
    holds after := by
  induction iterations generalizing world with
  | zero =>
      rw [serveWhileInterested] at returned
      split at returned
      · cases returned
      · rw [← Except.ok.inj returned]
        exact initially
  | succ iterations ih =>
      rw [serveWhileInterested] at returned
      split at returned
      · rename_i interested
        rcases Fallible.bind_eq_ok returned with ⟨next, called, returned⟩
        exact ih (served world next initially interested called) returned
      · rw [← Except.ok.inj returned]
        exact initially

theorem serveNonFdRules_keeps (holds : World → Prop) {loop : EventLoop World}
    {rules : List (BasicRule World)}
    (served : ∀ rule ∈ rules, ∀ world after, holds world → rule.interest world = true →
      rule.callback kernel world = .ok after → holds after)
    {world : World} {result : List (BasicRule World) × World × Bool} (initially : holds world)
    (returned : loop.serveNonFdRules kernel rules world = .ok result) :
    result.1.Sublist rules ∧ holds result.2.1 := by
  induction rules generalizing result with
  | nil =>
      rw [← Except.ok.inj returned]
      exact ⟨List.Sublist.refl _, initially⟩
  | cons rule rest ih =>
      have others := fun other member => served other (List.mem_cons_of_mem rule member)
      rw [serveNonFdRules] at returned
      split at returned
      · have result := ih others returned
        exact ⟨result.1.cons rule, result.2⟩
      · split at returned
        · rcases Fallible.bind_eq_ok returned with ⟨after, called, returned⟩
          rw [← Fallible.pure_eq_ok returned]
          exact ⟨List.Sublist.refl _,
            serveWhileInterested_keeps (served rule List.mem_cons_self) initially called⟩
        · rcases Fallible.bind_eq_ok returned with ⟨swept, serving, returned⟩
          have result := ih others serving
          rw [← Fallible.pure_eq_ok returned]
          exact ⟨result.1.cons_cons rule, result.2⟩

/-- What has been prepared is answered by the poll. -/
theorem reported_of_poll {polled : List (FDRule World × PollFd)} {answer : PollAnswer}
    (answered : kernel.poll (polled.map Prod.snd) = .ok answer) :
    Reported kernel answer.revents 0 polled := by
  intro place entry found
  refine ⟨_, answer, place, answered, ?_, ?_⟩
  · rw [List.getElem?_map, found]
    rfl
  · rw [Nat.zero_add]

theorem checkPoll_eq_ok {returned : Except Errno PollAnswer} {answer : PollAnswer}
    (passed : checkPoll returned = .ok answer) : returned = .ok answer := by
  cases returned with
  | error errno => cases passed
  | ok other => rw [Except.ok.inj passed]

/-- The invariant rule for a call of `wait_next_event`.  If there was nothing to poll,
all remaining rules are idle. -/
theorem waitNextEvent_keeps (discipline : Discipline kernel number holds done ready idle)
    {loop : EventLoop World}
    (others : ∀ rule ∈ loop.nonFdRules, ∀ rules world after, holds rules world →
      rule.interest world = true → rule.callback kernel world = .ok after → holds rules after)
    {world : World} (initially : holds loop.fdRules world)
    {result : Result × EventLoop World × World}
    (returned : loop.waitNextEvent kernel world = .ok result) :
    result.2.1.nonFdRules.Sublist loop.nonFdRules ∧ result.2.1.fdRules.Sublist loop.fdRules ∧
      done result.2.1.fdRules result.2.2 ∧
      (result.1 = .exit → ∀ rule ∈ result.2.1.fdRules, idle rule result.2.2) := by
  rcases Fallible.bind_eq_ok returned with ⟨⟨nonFdRules, world, fired⟩, serving, returned⟩
  have first := serveNonFdRules_keeps (holds loop.fdRules)
    (fun rule member world after => others rule member loop.fdRules world after) initially serving
  simp only at returned first
  cases fired with
  | true =>
      rw [if_pos rfl] at returned
      rw [← Fallible.pure_eq_ok returned]
      exact ⟨first.1, List.Sublist.refl _, discipline.unserved first.2, fun exit => by cases exit⟩
  | false =>
      rw [if_neg Bool.false_ne_true] at returned
      have prepared := prepare_keeps discipline loop.fdRules [] first.2 (by simp)
      have fewer := prepare_sublist loop.fdRules world
      generalize prepare loop.fdRules world = polled at returned prepared fewer
      rcases polled with ⟨polled, world⟩
      simp only [List.map_nil, List.nil_append] at returned prepared fewer
      split at returned
      · rename_i nothing
        rw [← Fallible.pure_eq_ok returned]
        refine ⟨first.1, fewer, discipline.unserved prepared.1, fun _ rule member => ?_⟩
        rcases List.mem_map.mp member with ⟨entry, inside, rfl⟩
        refine (prepared.2 entry inside).idle ?_
        have unasked : ∀ entry ∈ polled, entry.2.events.isSome = false := by simpa using nothing
        simpa using unasked entry inside
      · rcases Fallible.bind_eq_ok returned with ⟨answer, polling, returned⟩
        split at returned
        · rw [← Fallible.pure_eq_ok returned]
          exact ⟨first.1, fewer, discipline.unserved prepared.1, fun exit => by cases exit⟩
        · rcases Fallible.bind_eq_ok returned with ⟨swept, sweeping, returned⟩
          have kept := sweep_keeps discipline [] prepared.1
            (fun entry member => (prepared.2 entry member).toWaiting)
            (reported_of_poll (checkPoll_eq_ok polling)) sweeping
          rw [← Fallible.pure_eq_ok returned]
          exact ⟨first.1, (sweep_sublist sweeping).trans fewer, kept, fun exit => by cases exit⟩

/-- A serviceable loop without other rules never throws. -/
theorem waitNextEvent_returns (discipline : Discipline kernel number holds done ready idle)
    (serviceable : Serviceable kernel number holds ready) {loop : EventLoop World}
    (others : loop.nonFdRules = []) {world : World} (initially : holds loop.fdRules world) :
    ∃ result, loop.waitNextEvent kernel world = .ok result := by
  have none : loop.serveNonFdRules kernel loop.nonFdRules world = .ok ([], world, false) := by
    rw [others]
    rfl
  rw [waitNextEvent, Fallible.bind_of_ok none]
  have prepared := prepare_keeps discipline loop.fdRules [] initially (by simp)
  dsimp only
  rw [if_neg Bool.false_ne_true]
  generalize prepare loop.fdRules world = polled at prepared ⊢
  rcases polled with ⟨polled, world⟩
  simp only [List.map_nil, List.nil_append] at prepared ⊢
  split
  · exact ⟨_, rfl⟩
  · rcases serviceable.polls (polled.map Prod.snd) with ⟨answer, answered⟩
    have passed : checkPoll (kernel.poll (polled.map Prod.snd)) = .ok answer := by
      rw [answered]
      rfl
    rw [Fallible.bind_of_ok passed]
    split
    · exact ⟨_, rfl⟩
    · rcases sweep_returns discipline serviceable
        { loop with nonFdRules := [], fdRules := polled.map Prod.fst } [] prepared.1
        (fun entry member => (prepared.2 entry member).toWaiting) (reported_of_poll answered) with
        ⟨swept, sweeping⟩
      rw [Fallible.bind_of_ok sweeping]
      exact ⟨_, rfl⟩

end Kept

end EventLoop
end Rchan
