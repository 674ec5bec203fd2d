import CostBasis.Proofs.Book.Positions

/-!
# Update channels

What a command does to the publisher of a book, and from there to each of its channels.  An accepted fill
that is told of is announced: every open channel is offered its update, and channels that their readers
have left are removed.  Besides, channels are opened, read from and left.
-/

namespace CostBasis

/-! ## Channels -/

namespace Channel

def take (count : Nat) (c : Channel) : Channel := { c with queue := c.queue.drop count }

def leave (c : Channel) : Channel := { c with queue := [], connected := false }

variable (u : Update) (c : Channel)

@[simp] theorem id_offer : (c.offer u).id = c.id := by
  simp only [offer]
  split <;> rfl

@[simp] theorem connected_offer : (c.offer u).connected = c.connected := by
  simp only [offer]
  split <;> rfl

@[simp] theorem capacity_offer : (c.offer u).capacity = c.capacity := by
  simp only [offer]
  split <;> rfl

theorem offer_eq_self_iff : c.offer u = c ↔ c.isFull = true := by
  simp only [offer]
  split
  next full => simp [full]
  next room =>
    refine iff_of_false (fun same => ?_) room
    have queue := congrArg Channel.queue same
    simp at queue

theorem within_offer (within : c.queue.length ≤ c.capacity) :
    (c.offer u).queue.length ≤ (c.offer u).capacity := by
  simp only [offer]
  split
  next full => exact within
  next room =>
    have less : c.queue.length < c.capacity := by simpa [isFull] using room
    rw [List.length_append]
    exact less

end Channel

/-! ## Publishers -/

namespace Publisher

/-- The publisher after an update, which takes the next number. -/
def announce (p : Publisher) (u : Update) : Publisher :=
  { p with
    channels := (p.channels.filter Channel.connected).map (Channel.offer u)
    sequence := u.sequence
    dropped := p.dropped + (p.channels.filter fun c => c.isFull && c.connected).length }

theorem publish_eq (p : Publisher) (side : Side) (quantity price : Decimal) (outcome : FillOutcome)
    (position : Position) :
    (p.publish side quantity price outcome position).value
      = p.announce ⟨p.sequence + 1, side, quantity, price, outcome, position.snapshot price⟩ := by
  simp only [publish, announce, List.partition_eq_filter_filter, List.filter_filter]

def ids (p : Publisher) : List Nat := p.channels.map Channel.id

/-- The updates that wait for the reader of a channel. -/
def queue (p : Publisher) (id : Nat) : List Update := (p.channel? id).elim [] Channel.queue

theorem mem_ids_of_channel? {p : Publisher} {id : Nat} {c : Channel} (there : p.channel? id = some c) :
    id ∈ p.ids := by
  have holds := List.find?_some there
  rw [Bool.and_eq_true, beq_iff_eq] at holds
  exact holds.1 ▸ List.mem_map_of_mem (List.mem_of_find?_eq_some there)

theorem ids_modify (p : Publisher) (id : Nat) (f : Channel → Channel) (same : ∀ c, (f c).id = c.id) :
    (p.modify id f).ids = p.ids := by
  simp only [ids, modify, List.map_map]
  refine List.map_congr_left fun c _ => ?_
  simp only [Function.comp_apply]
  split <;> simp [same]

@[simp] theorem ids_take (p : Publisher) (id count : Nat) : (p.modify id (.take count)).ids = p.ids :=
  p.ids_modify id (.take count) fun _ => rfl

@[simp] theorem ids_leave (p : Publisher) (id : Nat) : (p.modify id .leave).ids = p.ids :=
  p.ids_modify id .leave fun _ => rfl

@[simp] theorem ids_openChannel (p : Publisher) (capacity : Nat) :
    (p.openChannel capacity).1.ids = p.ids ++ [p.nextChannel] := by
  simp [ids, openChannel]

theorem ids_announce (p : Publisher) (u : Update) :
    (p.announce u).ids = (p.channels.filter Channel.connected).map Channel.id := by
  simp [ids, announce]

section

variable (p : Publisher) (id : Nat)

theorem channel?_announce (u : Update) :
    (p.announce u).channel? id = (p.channel? id).map (Channel.offer u) := by
  simp only [channel?, announce, List.find?_map, List.find?_filter]
  congr 2
  funext c
  rw [Bool.eq_iff_iff]
  simp [and_comm]

theorem channel?_openChannel (capacity : Nat) :
    (p.openChannel capacity).1.channel? id
      = (p.channel? id).or
          (if id = p.nextChannel then some ⟨p.nextChannel, max capacity 1, [], true⟩ else none) := by
  simp only [channel?, openChannel, List.find?_append, List.find?_singleton]
  by_cases new : id = p.nextChannel
  · simp [new]
  · simp [new, Ne.symm new]

theorem channel?_modify (f : Channel → Channel) (same : ∀ c, (f c).id = c.id) (other : Nat) :
    (p.modify id f).channel? other
      = if other = id then (p.channels.find? fun c => c.id == id && (f c).connected).map f
        else p.channel? other := by
  simp only [channel?, modify]
  induction p.channels with
  | nil => simp
  | cons first rest ih =>
    simp only [List.map_cons, List.find?_cons, ih]
    by_cases here : other = id
    · subst here
      by_cases found : first.id = other
      · cases still : (f first).connected <;> simp [found, same, still]
      · simp [found, beq_false_of_ne found]
    · by_cases found : first.id = id
      · simp [here, found, same, beq_false_of_ne (Ne.symm here)]
      · simp [here, found]

theorem channel?_take (count other : Nat) :
    (p.modify id (.take count)).channel? other
      = if other = id then (p.channel? id).map (.take count) else p.channel? other :=
  p.channel?_modify id (.take count) (fun _ => rfl) other

theorem channel?_leave (other : Nat) :
    (p.modify id .leave).channel? other = if other = id then none else p.channel? other := by
  have none_left : p.channels.find? (fun c => c.id == id && c.leave.connected) = none := by
    simp [Channel.leave]
  rw [p.channel?_modify id .leave fun _ => rfl, none_left, Option.map_none]

end

end Publisher

/-! ## Moments -/

namespace Moment

variable (m : Moment)

/-- Whether a fill that is told of was asked for and accepted. -/
def accepted : Bool :=
  match m.command.notified?, m.step.answer with
  | some _, .outcome (.ok _) => true
  | _, _ => false

/-- The update of an accepted fill, with the position that it left. -/
def update? : Option Update :=
  match m.command.notified?, m.step.answer with
  | some (symbol, fill), .outcome (.ok outcome) =>
    (m.step.book.find? symbol).map fun p =>
      { sequence := m.step.book.publisher.sequence, side := fill.side, quantity := fill.quantity
        price := fill.price, outcome, snapshot := p.snapshot fill.price }
  | _, _ => none

/-- The updates that a reader was given. -/
def received (id : Nat) : List Update :=
  match m.command, m.step.answer with
  | .receive channel _, .updates updates => if channel = id then updates else []
  | _, _ => []

def opened? : Option Nat :=
  match m.command, m.step.answer with
  | .openChannel _, .id id => some id
  | _, _ => none

/-- The channel of an id, before the command and after it. -/
def channel? (id : Nat) : Option Channel := m.before.publisher.channel? id

def channelAfter? (id : Nat) : Option Channel := m.step.book.publisher.channel? id

theorem update?_of_not_accepted {m : Moment} (silent : m.accepted = false) : m.update? = none := by
  simp only [update?]
  split
  next told answer => simp [accepted, told, answer] at silent
  next => rfl

/-- What a command does to the publisher. -/
inductive Turn (m : Moment) : Publisher → Prop where
  | announced {u : Update} (told : m.command.notified?.isSome = true) (accepted : m.accepted = true)
      (made : m.update? = some u) (next : u.sequence = m.before.publisher.sequence + 1) :
      Turn m (m.before.publisher.announce u)
  | opened {capacity : Option Nat} (asked : m.command = .openChannel capacity)
      (given : m.opened? = some m.before.publisher.nextChannel) :
      Turn m (m.before.publisher.openChannel (capacity.getD m.before.channelCapacity)).1
  | read {id : Nat} {limit : Option Nat} {c : Channel} (asked : m.command = .receive id limit)
      (there : m.channel? id = some c)
      (given : m.step.answer = .updates (c.queue.take (limit.getD c.queue.length))) :
      Turn m (m.before.publisher.modify id (.take (limit.getD c.queue.length)))
  | left {id : Nat} {c : Channel} (asked : m.command = .disconnect id) (there : m.channel? id = some c) :
      Turn m (m.before.publisher.modify id .leave)
  | kept (silent : m.accepted = false) (idle : ∀ id, m.received id = []) (unopened : m.opened? = none)
      (stays : ∀ id, m.command = .disconnect id → m.channel? id = none) :
      Turn m m.before.publisher

section

variable {b : Book} {c : Command} {symbol : String} {fill : Fill}
  (told : c.notified? = some (symbol, fill))

include told

theorem update?_of_notified_ok {next : Position} {outcome : FillOutcome}
    (filled : (b.positionOrNew symbol).apply fill = .ok (next, outcome)) :
    (⟨b, c⟩ : Moment).update?
      = some ⟨b.publisher.sequence + 1, fill.side, fill.quantity, fill.price, outcome,
          next.snapshot fill.price⟩ := by
  obtain ⟨answer, book, _⟩ := Book.step_of_notified_ok told filled
  have found := Book.find?_step_of_notified_ok told filled
  have sequence : (b.step c).book.publisher.sequence = b.publisher.sequence + 1 := by
    rw [book]
    rfl
  simp only [update?, told, step_mk, answer, found, sequence, Option.map_some]

theorem turn_of_notified : (⟨b, c⟩ : Moment).Turn (b.step c).book.publisher := by
  cases filled : (b.positionOrNew symbol).apply fill with
  | ok result =>
    obtain ⟨next, outcome⟩ := result
    obtain ⟨answer, book, _⟩ := Book.step_of_notified_ok told filled
    rw [book, Publisher.publish_eq]
    refine .announced (by simp [told]) ?_ (update?_of_notified_ok told filled) rfl
    simp only [accepted, told, step_mk, answer]
  | error failure =>
    obtain ⟨answer, book, _⟩ := Book.step_of_notified_error told filled
    have publisher : (b.step c).book.publisher = b.publisher := by
      rw [book]
      rfl
    rw [publisher]
    -- Only a fill or an execution report is told of, and neither reads from a channel nor leaves one.
    cases c with
    | fill | apply =>
      refine .kept ?_ (fun _ => rfl) rfl fun _ asked => by cases asked
      simp only [accepted, told, step_mk, answer]
    | _ => cases told

end

theorem turn_of_receive (b : Book) (id : Nat) (limit : Option Nat) :
    (⟨b, .receive id limit⟩ : Moment).Turn (b.step (.receive id limit)).book.publisher := by
  cases there : b.publisher.channel? id with
  | some c =>
    have given : b.publisher.receive? id limit
        = some (b.publisher.modify id (.take (limit.getD c.queue.length)),
          c.queue.take (limit.getD c.queue.length)) := by
      simp only [Publisher.receive?, there]
      rfl
    have turned := Turn.read (m := ⟨b, .receive id limit⟩) rfl there
      (by simp only [step_mk, Book.step, given])
    simpa only [Book.step, given] using turned
  | none =>
    have given : b.publisher.receive? id limit = none := by simp [Publisher.receive?, there]
    have publisher : (b.step (.receive id limit)).book.publisher = b.publisher := by
      simp only [Book.step, given]
    rw [publisher]
    refine .kept rfl (fun _ => ?_) rfl fun _ asked => by cases asked
    simp only [received, step_mk, Book.step, given]

theorem turn_of_disconnect (b : Book) (id : Nat) :
    (⟨b, .disconnect id⟩ : Moment).Turn (b.step (.disconnect id)).book.publisher := by
  cases there : b.publisher.channel? id with
  | some c =>
    have gone : b.publisher.disconnect? id = some (b.publisher.modify id .leave) := by
      simp only [Publisher.disconnect?, there]
      rfl
    have turned := Turn.left (m := ⟨b, .disconnect id⟩) rfl there
    simpa only [Book.step, gone] using turned
  | none =>
    have publisher : (b.step (.disconnect id)).book.publisher = b.publisher := by
      simp only [Book.step, Publisher.disconnect?, there, Option.map_none]
    rw [publisher]
    refine .kept rfl (fun _ => rfl) rfl fun other asked => ?_
    cases asked
    exact there

theorem turn : m.Turn m.step.book.publisher := by
  obtain ⟨b, c⟩ := m
  have quiet : ∀ symbol, c.symbol? = some symbol → c.notified? = none →
      (b.step c).book.publisher = b.publisher := fun symbol named told => by
    rw [(Book.step_of_quiet named told).2.1]
    rfl
  cases c with
  | fill | apply => exact turn_of_notified rfl
  | openChannel capacity => exact .opened rfl rfl
  | receive id limit => exact turn_of_receive b id limit
  | disconnect id => exact turn_of_disconnect b id
  | adjust | setMethod =>
    rw [step_mk, quiet _ rfl rfl]
    exact .kept rfl (fun _ => rfl) rfl fun _ asked => by cases asked
  | unsubscribe id =>
    have publisher : (b.step (.unsubscribe id)).book.publisher = b.publisher := by
      simp only [Book.step]
      split <;> rfl
    rw [step_mk, publisher]
    exact .kept rfl (fun _ => rfl) rfl fun _ asked => by cases asked
  | ensure | setDefaultMethod | clear | subscribe | subscribeOnly | query =>
    exact .kept rfl (fun _ => rfl) rfl fun _ asked => by cases asked

variable {m}

theorem accepted_of_asked {c : Command} (asked : m.command = c) (quiet : c.notified? = none) :
    m.accepted = false := by
  simp only [accepted, asked, quiet]

theorem of_told (told : m.command.notified?.isSome = true) :
    (∀ id, m.received id = []) ∧ m.opened? = none ∧ ∀ id, m.command ≠ .disconnect id := by
  obtain ⟨b, c⟩ := m
  cases c with
  | fill | apply => exact ⟨fun _ => rfl, rfl, fun _ asked => by cases asked⟩
  | _ => cases told

/-! ## One channel -/

/-- What a command does to a channel that is open. -/
inductive Serves (m : Moment) (id : Nat) (c : Channel) (p : Publisher) : Option Channel → Prop where
  | offered {u : Update} (accepted : m.accepted = true) (made : m.update? = some u)
      (idle : m.received id = []) (stays : m.command ≠ .disconnect id) : Serves m id c p (some (c.offer u))
  | taken (count : Nat) (silent : m.accepted = false) (given : m.received id = c.queue.take count)
      (stays : m.command ≠ .disconnect id) : Serves m id c p (some (c.take count))
  | left (silent : m.accepted = false) (idle : m.received id = []) (asked : m.command = .disconnect id)
      (attached : id ∈ p.ids) : Serves m id c p none

namespace Turn

variable {p : Publisher} (turned : m.Turn p)

include turned

theorem sequence : p.sequence = m.before.publisher.sequence + m.accepted.toNat := by
  cases turned with
  | announced told accepted made next => simp [Publisher.announce, next, accepted]
  | opened asked | read asked | left asked =>
    simp [accepted_of_asked asked rfl, Publisher.openChannel, Publisher.modify]
  | kept silent => simp [silent]

theorem dropped : p.dropped = m.before.publisher.dropped
    + if m.accepted then (m.before.publisher.channels.filter fun c => c.isFull && c.connected).length
      else 0 := by
  cases turned with
  | announced _ accepted => simp [Publisher.announce, accepted]
  | opened asked | read asked | left asked =>
    simp [accepted_of_asked asked rfl, Publisher.openChannel, Publisher.modify]
  | kept silent => simp [silent]

/-- The ids of channels are given out one after the other. -/
theorem range_nextChannel : List.range p.nextChannel
    = List.range m.before.publisher.nextChannel ++ m.opened?.toList := by
  cases turned with
  | announced told => simp [(of_told told).2.1, Publisher.announce]
  | opened asked given => simp [given, Publisher.openChannel, List.range_succ]
  | read asked | left asked => simp [opened?, asked, Publisher.modify]
  | kept _ _ unopened => simp [unopened]

theorem nextChannel_le : m.before.publisher.nextChannel ≤ p.nextChannel := by
  have lengths := congrArg List.length turned.range_nextChannel
  rw [List.length_append, List.length_range, List.length_range] at lengths
  omega

theorem serves {id : Nat} {c : Channel} (there : m.channel? id = some c) :
    m.Serves id c p (p.channel? id) := by
  rw [channel?] at there
  cases turned with
  | announced told accepted made =>
    obtain ⟨idle, _, stays⟩ := of_told told
    rw [Publisher.channel?_announce, there]
    exact .offered accepted made (idle id) (stays id)
  | opened asked =>
    rw [Publisher.channel?_openChannel, there]
    exact .taken 0 (accepted_of_asked asked rfl) (by simp [received, asked]) (by simp [asked])
  | read asked found given =>
    have silent := accepted_of_asked asked rfl
    rw [Publisher.channel?_take]
    split
    next here =>
      subst here
      cases there.symm.trans found
      rw [there]
      exact .taken _ silent (by simp [received, asked, given]) (by simp [asked])
    next other =>
      rw [there]
      exact .taken 0 silent (by simp [received, asked, given, Ne.symm other]) (by simp [asked])
  | left asked =>
    have silent := accepted_of_asked asked rfl
    have idle : m.received id = [] := by simp [received, asked]
    rw [Publisher.channel?_leave]
    split
    next here =>
      exact .left silent idle (here ▸ asked) (by simpa using Publisher.mem_ids_of_channel? there)
    next other =>
      rw [there]
      exact .taken 0 silent idle (by simp [asked, Ne.symm other])
  | kept silent idle _ stays =>
    rw [there]
    refine .taken 0 silent (idle id) fun asked => ?_
    cases there.symm.trans (stays id asked)

theorem gone {id : Nat} (below : id < m.before.publisher.nextChannel) (gone : m.channel? id = none) :
    p.channel? id = none ∧ m.received id = [] := by
  rw [channel?] at gone
  cases turned with
  | announced told =>
    rw [Publisher.channel?_announce, gone]
    exact ⟨rfl, (of_told told).1 id⟩
  | opened asked =>
    rw [Publisher.channel?_openChannel, gone, if_neg below.ne]
    exact ⟨rfl, by simp [received, asked]⟩
  | read asked found given =>
    rw [Publisher.channel?_take]
    split
    next here =>
      subst here
      cases gone.symm.trans found
    next other =>
      exact ⟨gone, by simp [received, asked, given, Ne.symm other]⟩
  | left asked =>
    rw [Publisher.channel?_leave, gone]
    exact ⟨by simp, by simp [received, asked]⟩
  | kept _ idle => exact ⟨gone, idle id⟩

/-- A channel that is no longer open is attached until the next accepted fill. -/
theorem mem_ids {id : Nat} (below : id < m.before.publisher.nextChannel) (gone : m.channel? id = none) :
    id ∈ p.ids ↔ id ∈ m.before.publisher.ids ∧ m.accepted = false := by
  cases turned with
  | announced _ accepted =>
    -- Every channel that is kept has a reader, so it would be open.
    refine iff_of_false (fun mem => ?_) (by simp [accepted])
    rw [Publisher.ids_announce] at mem
    obtain ⟨c, still, rfl⟩ := List.mem_map.mp mem
    obtain ⟨attached, there⟩ := List.mem_filter.mp still
    have absent := List.find?_eq_none.mp gone c attached
    simp [there] at absent
  | opened asked => simp [accepted_of_asked asked rfl, below.ne]
  | read asked | left asked => simp [accepted_of_asked asked rfl]
  | kept silent => simp [silent]

end Turn

end Moment

def Book.updates (ms : List Moment) : List Update := ms.filterMap Moment.update?

theorem Book.turn (b : Book) (c : Command) : (⟨b, c⟩ : Moment).Turn (b.step c).book.publisher :=
  Moment.turn ⟨b, c⟩

namespace Publisher

/-- Every channel has an id of its own, which was given out before. -/
structure Sound (p : Publisher) : Prop where
  nodup : p.ids.Nodup
  below : ∀ id ∈ p.ids, id < p.nextChannel

theorem Sound.channel?_eq_some_iff {p : Publisher} (sound : p.Sound) {id : Nat} {c : Channel} :
    p.channel? id = some c ↔ c ∈ p.channels ∧ c.id = id ∧ c.connected = true := by
  constructor
  · intro found
    have holds := List.find?_some found
    rw [Bool.and_eq_true, beq_iff_eq] at holds
    exact ⟨List.mem_of_find?_eq_some found, holds⟩
  · rintro ⟨mem, rfl, there⟩
    cases found : p.channel? c.id with
    | none => simpa [there] using List.find?_eq_none.mp found c mem
    | some d =>
      have holds := List.find?_some found
      rw [Bool.and_eq_true, beq_iff_eq] at holds
      rw [List.inj_on_of_nodup_map sound.nodup (List.mem_of_find?_eq_some found) mem holds.1]

theorem Sound.channel?_of_le {p : Publisher} (sound : p.Sound) {id : Nat} (le : p.nextChannel ≤ id) :
    p.channel? id = none := by
  cases found : p.channel? id with
  | none => rfl
  | some c =>
    obtain ⟨mem, rfl, _⟩ := sound.channel?_eq_some_iff.mp found
    exact absurd (sound.below c.id (List.mem_map_of_mem mem)) (not_lt.mpr le)

theorem Sound.turn {m : Moment} {p : Publisher} (sound : m.before.publisher.Sound) (turned : m.Turn p) :
    p.Sound := by
  cases turned with
  | @announced u =>
    have kept : (m.before.publisher.announce u).ids.Sublist m.before.publisher.ids := by
      rw [ids_announce]
      exact List.filter_sublist.map Channel.id
    exact ⟨sound.nodup.sublist kept, fun id mem => sound.below id (kept.mem mem)⟩
  | opened =>
    refine ⟨?_, fun id mem => ?_⟩
    · rw [ids_openChannel]
      exact List.nodup_append_comm.mp
        (List.nodup_cons.mpr ⟨fun mem => (sound.below _ mem).ne rfl, sound.nodup⟩)
    · rw [ids_openChannel, List.mem_append, List.mem_singleton] at mem
      rcases mem with mem | rfl
      · exact (sound.below id mem).trans (Nat.lt_succ_self _)
      · exact Nat.lt_succ_self _
  | read | left =>
    refine ⟨?_, fun id mem => sound.below id ?_⟩
    · simpa using sound.nodup
    · simpa using mem
  | kept => exact sound

end Publisher

end CostBasis
