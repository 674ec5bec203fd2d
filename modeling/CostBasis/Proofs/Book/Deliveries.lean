import CostBasis.Proofs.Book.Channels

/-!
# Deliveries

What the readers of channels are given in the course of a run.  On each channel the updates taken and
those still in its queue are the updates of the accepted fills, in order and each of them once, but for
the ones that were dropped because the queue was full.  Every drop is counted.
-/

namespace CostBasis

namespace Moment

section

variable (m : Moment) (id : Nat)

/-- Whether an accepted fill changed an open channel, and so left its update there. -/
def delivers : Bool :=
  m.accepted && (m.channel? id).isSome && decide (m.channelAfter? id ≠ m.channel? id)

/-- Whether an accepted fill left an open channel as it was. -/
def drops : Bool :=
  m.accepted && (m.channel? id).isSome && decide (m.channelAfter? id = m.channel? id)

/-- The update that a channel was left with. -/
def delivered? : Option Update := if m.delivers id then m.update? else none

end

variable {m : Moment} {id : Nat} {c : Channel}

theorem exists_update (accepted : m.accepted = true) :
    ∃ u, m.update? = some u ∧ u.sequence = m.before.publisher.sequence + 1 := by
  have turned := m.turn
  generalize m.step.book.publisher = p at turned
  cases turned with
  | announced _ _ made next => exact ⟨_, made, next⟩
  | opened asked | read asked | left asked => simp [accepted_of_asked asked rfl] at accepted
  | kept silent => simp [silent] at accepted

/-- An open channel drops an update exactly when it is full, and takes it otherwise. -/
theorem drops_and_delivers (there : m.channel? id = some c) :
    m.drops id = (m.accepted && c.isFull) ∧ m.delivers id = (m.accepted && !c.isFull) := by
  have serves := m.turn.serves there
  rw [← channelAfter?] at serves
  generalize after : m.channelAfter? id = last at serves
  cases serves with
  | offered accepted =>
    simp [drops, delivers, accepted, there, after, Channel.offer_eq_self_iff]
  | taken _ silent | left silent => simp [drops, delivers, silent]

/-- Every full channel drops the update of an accepted fill, and no other does. -/
theorem countP_drops (sound : m.before.publisher.Sound) {n : Nat} (le : m.before.publisher.nextChannel ≤ n) :
    (List.range n).countP (fun id => m.drops id)
      = if m.accepted then (m.before.publisher.channels.filter fun c => c.isFull && c.connected).length
        else 0 := by
  cases accepted : m.accepted with
  | false => simp [drops, accepted]
  | true =>
    -- An id is found for exactly one channel, so counting ids is counting channels.
    have same_ids : ((List.range n).filter fun id => m.drops id).Perm
        ((m.before.publisher.channels.filter fun c => c.isFull && c.connected).map Channel.id) := by
      refine (List.perm_ext_iff_of_nodup (List.nodup_range.filter _)
        (sound.nodup.sublist (List.filter_sublist.map _))).mpr fun id => ?_
      simp only [List.mem_filter, List.mem_range, List.mem_map, Bool.and_eq_true]
      constructor
      · rintro ⟨_, drops⟩
        have found : (m.channel? id).isSome = true := by
          simp only [Moment.drops, Bool.and_eq_true] at drops
          exact drops.1.2
        obtain ⟨c, found⟩ := Option.isSome_iff_exists.mp found
        obtain ⟨mem, same, there⟩ := sound.channel?_eq_some_iff.mp found
        rw [(drops_and_delivers found).1, Bool.and_eq_true] at drops
        exact ⟨c, ⟨mem, drops.2, there⟩, same⟩
      · rintro ⟨c, ⟨mem, full, there⟩, rfl⟩
        have found : m.channel? c.id = some c := sound.channel?_eq_some_iff.mpr ⟨mem, rfl, there⟩
        exact ⟨(sound.below c.id (List.mem_map_of_mem mem)).trans_le le,
          by rw [(drops_and_delivers found).1, accepted, full, Bool.and_self]⟩
    rw [List.countP_eq_length_filter, same_ids.length_eq, List.length_map, if_pos rfl]

theorem exists_offer (accepted : m.accepted = true) (there : m.channel? id = some c) :
    ∃ u, m.update? = some u ∧ m.channelAfter? id = some (c.offer u) := by
  have serves := m.turn.serves there
  rw [← channelAfter?] at serves
  generalize m.channelAfter? id = last at serves
  cases serves with
  | @offered u _ made => exact ⟨u, made, rfl⟩
  | taken _ silent | left silent => simp [silent] at accepted

/-- What an open channel goes through with a command, unless its reader leaves. -/
structure Keeps (m : Moment) (id : Nat) (c c' : Channel) : Prop where
  stays : m.command ≠ .disconnect id
  conserved : c.queue ++ (m.delivered? id).toList = m.received id ++ c'.queue
  counted : (m.delivered? id).toList.length + (m.drops id).toNat = m.accepted.toNat
  capacity : c'.capacity = c.capacity
  within : c.queue.length ≤ c.capacity → c'.queue.length ≤ c'.capacity

theorem keeps_or_leaves (there : m.channel? id = some c) :
    (∃ c', m.channelAfter? id = some c' ∧ m.Keeps id c c') ∨
      m.channelAfter? id = none ∧ m.command = .disconnect id ∧ m.accepted = false ∧
        m.received id = [] ∧ id ∈ m.step.book.publisher.ids := by
  obtain ⟨dropped, delivers⟩ := drops_and_delivers there
  have serves := m.turn.serves there
  rw [← channelAfter?] at serves
  generalize m.channelAfter? id = last at serves
  cases serves with
  | @offered u accepted made idle stays =>
    refine .inl ⟨_, rfl, stays, ?_, ?_, c.capacity_offer u, fun within => ?_⟩
    · cases full : c.isFull <;> simp [delivered?, delivers, accepted, made, idle, Channel.offer, full]
    · cases full : c.isFull <;> simp [delivered?, delivers, dropped, accepted, made, full]
    · exact c.within_offer u within
  | taken count silent given stays =>
    refine .inl ⟨_, rfl, stays, ?_, ?_, rfl, fun within => ?_⟩
    · simp [delivered?, delivers, silent, given, Channel.take]
    · simp [delivered?, delivers, dropped, silent]
    · exact (List.drop_sublist ..).length_le.trans within
  | left silent idle asked attached => exact .inr ⟨rfl, asked, silent, idle, attached⟩

end Moment

namespace Book

/-! ## What moments did -/

def openings (ms : List Moment) : List Nat := ms.filterMap Moment.opened?

def receivedOn (id : Nat) (ms : List Moment) : List Update := ms.flatMap fun m => m.received id

def deliveredOn (id : Nat) (ms : List Moment) : List Update := ms.filterMap fun m => m.delivered? id

def dropsOn (id : Nat) (ms : List Moment) : Nat := ms.countP fun m => m.drops id

section

variable (id : Nat) (m : Moment) (ms : List Moment)

@[simp] theorem receivedOn_cons : receivedOn id (m :: ms) = m.received id ++ receivedOn id ms :=
  List.flatMap_cons

@[simp] theorem deliveredOn_cons :
    deliveredOn id (m :: ms) = (m.delivered? id).toList ++ deliveredOn id ms := by
  simp only [deliveredOn, List.filterMap_cons]
  cases m.delivered? id <;> rfl

theorem countP_cons_toNat (holds : Moment → Bool) :
    (m :: ms).countP holds = (holds m).toNat + ms.countP holds := by
  rw [List.countP_cons, Nat.add_comm]
  cases holds m <;> rfl

@[simp] theorem dropsOn_cons : dropsOn id (m :: ms) = (m.drops id).toNat + dropsOn id ms :=
  countP_cons_toNat m ms _

end

theorem deliveredOn_sublist (id : Nat) (ms : List Moment) : (deliveredOn id ms).Sublist (updates ms) := by
  simp only [deliveredOn, updates, Moment.delivered?]
  rw [← List.filterMap_filter]
  exact List.filter_sublist.filterMap _

/-! ## The course of a run -/

theorem sequence_run (b : Book) (commands : List Command) :
    (b.run commands).1.publisher.sequence
      = b.publisher.sequence + (b.moments commands).countP Moment.accepted := by
  induction commands generalizing b with
  | nil => rfl
  | cons c rest ih =>
    rw [run, ih, (b.turn c).sequence, moments, countP_cons_toNat, Nat.add_assoc]

theorem updates_numbered (b : Book) (commands : List Command) :
    (updates (b.moments commands)).map Update.sequence
      = List.range' (b.publisher.sequence + 1) ((b.moments commands).countP Moment.accepted) := by
  induction commands generalizing b with
  | nil => rfl
  | cons c rest ih =>
    have stepped := (b.turn c).sequence
    simp only [updates, moments, List.filterMap_cons, List.countP_cons] at ih ⊢
    cases accepted : (⟨b, c⟩ : Moment).accepted with
    | true =>
      obtain ⟨u, made, numbered⟩ := Moment.exists_update accepted
      simp [made, numbered, ih, stepped, accepted, List.range'_succ]
    | false => simp [Moment.update?_of_not_accepted accepted, ih, stepped, accepted]

theorem range_nextChannel_run (b : Book) (commands : List Command) :
    List.range (b.run commands).1.publisher.nextChannel
      = List.range b.publisher.nextChannel ++ openings (b.moments commands) := by
  induction commands generalizing b with
  | nil => simp [run, moments, openings]
  | cons c rest ih =>
    rw [run, ih, (b.turn c).range_nextChannel, moments, openings, openings, List.filterMap_cons,
      List.append_assoc]
    cases (⟨b, c⟩ : Moment).opened? <;> rfl

theorem nextChannel_le_run (b : Book) (commands : List Command) :
    b.publisher.nextChannel ≤ (b.run commands).1.publisher.nextChannel := by
  have lengths := congrArg List.length (range_nextChannel_run b commands)
  rw [List.length_append, List.length_range, List.length_range] at lengths
  omega

theorem sound_run {b : Book} (sound : b.publisher.Sound) (commands : List Command) :
    (b.run commands).1.publisher.Sound := by
  induction commands generalizing b with
  | nil => exact sound
  | cons c rest ih => exact ih (sound.turn (b.turn c))

theorem sum_dropsOn_cons (ids : List Nat) (m : Moment) (ms : List Moment) :
    (ids.map fun id => dropsOn id (m :: ms)).sum
      = ids.countP (fun id => m.drops id) + (ids.map fun id => dropsOn id ms).sum := by
  induction ids with
  | nil => rfl
  | cons id rest ih =>
    simp only [List.map_cons, List.sum_cons, List.countP_cons, ih]
    simp only [dropsOn, List.countP_cons]
    omega

theorem dropped_run {b : Book} (sound : b.publisher.Sound) (commands : List Command) {n : Nat}
    (le : (b.run commands).1.publisher.nextChannel ≤ n) :
    (b.run commands).1.publisher.dropped
      = b.publisher.dropped + ((List.range n).map fun id => dropsOn id (b.moments commands)).sum := by
  induction commands generalizing b with
  | nil => simp [run, moments, dropsOn]
  | cons c rest ih =>
    have turned := b.turn c
    have later := (nextChannel_le_run (b.step c).book rest).trans le
    rw [run, ih (sound.turn turned) le, turned.dropped, moments, sum_dropsOn_cons,
      Moment.countP_drops sound (turned.nextChannel_le.trans later), Nat.add_assoc]

theorem dropsOn_of_absent {id : Nat} {ms : List Moment} (absent : ∀ m ∈ ms, m.channel? id = none) :
    deliveredOn id ms = [] ∧ dropsOn id ms = 0 := by
  constructor
  · refine List.filterMap_eq_nil_iff.mpr fun m mem => ?_
    simp [Moment.delivered?, Moment.delivers, absent m mem]
  · refine List.countP_eq_zero.mpr fun m mem => ?_
    simp [Moment.drops, absent m mem]

theorem absent_before {b : Book} (sound : b.publisher.Sound) (commands : List Command) {id : Nat}
    (le : (b.run commands).1.publisher.nextChannel ≤ id) :
    ∀ m ∈ b.moments commands, m.channel? id = none := by
  induction commands generalizing b with
  | nil => simp [moments]
  | cons c rest ih =>
    rw [moments, List.forall_mem_cons]
    exact ⟨sound.channel?_of_le ((nextChannel_le_run b (c :: rest)).trans le),
      ih (sound.turn (b.turn c)) le⟩

/-! ## A channel in the course of a run -/

/-- What becomes of an open channel, up to the publisher at the end. -/
structure Carried (id : Nat) (c : Channel) (ms : List Moment) (p : Publisher) : Prop where
  /-- What is lost is in the queue when the reader leaves. -/
  conserved : ∃ lost, c.queue ++ deliveredOn id ms = receivedOn id ms ++ p.queue id ++ lost ∧
    ((p.channel? id).isSome → lost = [])
  counted : (p.channel? id).isSome →
    (deliveredOn id ms).length + dropsOn id ms = ms.countP Moment.accepted
  open_iff : (p.channel? id).isSome ↔ ∀ m ∈ ms, m.command ≠ .disconnect id
  fits : ∀ m ∈ ms, ∀ d, m.channel? id = some d → d.capacity = c.capacity ∧ d.queue.length ≤ c.capacity
  silent : ms.Pairwise fun m later =>
    m.command = .disconnect id → later.channel? id = none ∧ later.received id = []
  attached_iff : id ∈ p.ids ↔
    ms.Pairwise fun m later => m.command = .disconnect id → later.accepted = false

namespace Carried

variable {id : Nat} {c : Channel} {p : Publisher} {m : Moment} {ms : List Moment}

theorem nil (there : p.channel? id = some c) : Carried id c [] p where
  conserved := ⟨[], by simp [deliveredOn, receivedOn, Publisher.queue, there], fun _ => rfl⟩
  counted _ := rfl
  open_iff := by simp [there]
  fits := by simp
  silent := .nil
  attached_iff := iff_of_true (p.mem_ids_of_channel? there) .nil

variable (there : m.channel? id = some c) (within : c.queue.length ≤ c.capacity)

include there within

theorem keep {c' : Channel} (rest : Carried id c' ms p) (keeps : m.Keeps id c c') :
    Carried id c (m :: ms) p where
  conserved := by
    obtain ⟨lost, conserved, kept⟩ := rest.conserved
    refine ⟨lost, ?_, kept⟩
    calc c.queue ++ deliveredOn id (m :: ms)
        = (c.queue ++ (m.delivered? id).toList) ++ deliveredOn id ms := by simp
      _ = m.received id ++ (c'.queue ++ deliveredOn id ms) := by rw [keeps.conserved, List.append_assoc]
      _ = receivedOn id (m :: ms) ++ p.queue id ++ lost := by
        rw [conserved]
        simp
  counted still := by
    have counted := rest.counted still
    have one := keeps.counted
    rw [deliveredOn_cons, List.length_append, dropsOn_cons, countP_cons_toNat]
    omega
  open_iff := by
    rw [rest.open_iff, List.forall_mem_cons]
    exact (and_iff_right keeps.stays).symm
  fits := by
    rw [List.forall_mem_cons]
    refine ⟨fun d found => ?_, fun m' mem d found => ?_⟩
    · cases there.symm.trans found
      exact ⟨rfl, within⟩
    · rw [← keeps.capacity]
      exact rest.fits m' mem d found
  silent := .cons (fun _ _ asked => absurd asked keeps.stays) rest.silent
  attached_iff := by
    rw [rest.attached_iff, List.pairwise_cons]
    exact (and_iff_right fun _ _ asked => absurd asked keeps.stays).symm

theorem leave (asked : m.command = .disconnect id) (silent : m.accepted = false)
    (idle : m.received id = []) (last : p.channel? id = none)
    (gone : ∀ later ∈ ms, later.channel? id = none ∧ later.received id = [])
    (attached_iff : id ∈ p.ids ↔ ∀ later ∈ ms, later.accepted = false) : Carried id c (m :: ms) p where
  conserved := by
    have received : receivedOn id ms = [] := List.flatMap_eq_nil_iff.mpr fun later mem => (gone later mem).2
    have undelivered := (dropsOn_of_absent fun later mem => (gone later mem).1).1
    refine ⟨c.queue, ?_, by simp [last]⟩
    simp [undelivered, received, idle, Moment.delivered?, Moment.delivers, silent, Publisher.queue, last]
  counted := by simp [last]
  open_iff := by simp [asked, last]
  fits := by
    rw [List.forall_mem_cons]
    refine ⟨fun d found => ?_, fun later mem d found => ?_⟩
    · cases there.symm.trans found
      exact ⟨rfl, within⟩
    · cases (gone later mem).1.symm.trans found
  silent := .cons (fun later mem _ => gone later mem)
    (List.pairwise_of_forall_mem_list fun _ _ later mem _ => gone later mem)
  attached_iff := by
    rw [attached_iff, List.pairwise_cons]
    exact ⟨fun quiet => ⟨fun later mem _ => quiet later mem,
      List.pairwise_of_forall_mem_list fun _ _ later mem _ => quiet later mem⟩,
      fun quiet later mem => quiet.1 later mem asked⟩

end Carried

section

variable {b : Book} {id : Nat} {c : Channel} (below : id < b.publisher.nextChannel)

include below

/-- Once its reader has left, a channel is given nothing and drops nothing, and it goes with the next
accepted fill. -/
theorem gone_run (gone : b.publisher.channel? id = none) (commands : List Command) :
    (b.run commands).1.publisher.channel? id = none ∧
      (∀ m ∈ b.moments commands, m.channel? id = none ∧ m.received id = []) ∧
      (id ∈ (b.run commands).1.publisher.ids ↔
        id ∈ b.publisher.ids ∧ ∀ m ∈ b.moments commands, m.accepted = false) := by
  induction commands generalizing b with
  | nil => simp [run, moments, gone]
  | cons c rest ih =>
    have turned := b.turn c
    obtain ⟨still_gone, idle⟩ := turned.gone below gone
    obtain ⟨last, absent, attached⟩ := ih (below.trans_le turned.nextChannel_le) still_gone
    refine ⟨last, ?_, ?_⟩
    · rw [moments, List.forall_mem_cons]
      exact ⟨⟨gone, idle⟩, absent⟩
    · rw [run, attached, turned.mem_ids below gone, moments, List.forall_mem_cons, and_assoc]

theorem carried (there : b.publisher.channel? id = some c) (within : c.queue.length ≤ c.capacity)
    (commands : List Command) :
    Carried id c (b.moments commands) (b.run commands).1.publisher := by
  -- While the reader stays the channel goes on as another one, once it has left nothing more happens.
  induction commands generalizing b c with
  | nil => exact .nil there
  | cons command rest ih =>
    have below' := below.trans_le (b.turn command).nextChannel_le
    obtain ⟨c', there', keeps⟩ | ⟨gone, asked, silent, idle, attached⟩ :=
      Moment.keeps_or_leaves (m := ⟨b, command⟩) there
    · exact .keep (m := ⟨b, command⟩) there within (ih below' there' (keeps.within within)) keeps
    · obtain ⟨last, absent, attached_iff⟩ := gone_run below' gone rest
      exact .leave (m := ⟨b, command⟩) there within asked silent idle last absent
        (attached_iff.trans (and_iff_right attached))

end

/-! ## A session from its start -/

/-- What a channel is given that was opened after a number of updates. -/
structure Delivers (start id size : Nat) (ms : List Moment) (p : Publisher) : Prop where
  increasing : ((receivedOn id ms ++ p.queue id).map Update.sequence).Pairwise (· < ·)
  later : ∀ u ∈ receivedOn id ms ++ p.queue id, start < u.sequence
  offered : ∀ m ∈ ms, m.accepted = true → ∀ c, m.channel? id = some c →
    ∃ u, m.update? = some u ∧ c.queue.length ≤ size ∧
      m.channelAfter? id = some (if c.queue.length = size then c else { c with queue := c.queue ++ [u] })
  delivered : receivedOn id ms ++ p.queue id <+: deliveredOn id ms
  complete : (p.channel? id).isSome →
    receivedOn id ms ++ p.queue id = deliveredOn id ms ∧
      (receivedOn id ms).length + (p.queue id).length + dropsOn id ms = ms.countP Moment.accepted
  open_iff : (p.channel? id).isSome ↔ ∀ m ∈ ms, m.command ≠ .disconnect id
  /-- Nothing comes to a channel, and nothing is dropped, once its reader has left. -/
  silent : ms.Pairwise fun m later =>
    m.command = .disconnect id → later.channel? id = none ∧ later.received id = []
  /-- It goes with the first accepted fill after that. -/
  attached_iff : id ∈ p.ids ↔
    ms.Pairwise fun m later => m.command = .disconnect id → later.accepted = false

theorem Carried.delivers {b : Book} {id size : Nat} {commands : List Command} {p : Publisher}
    (carried : Carried id ⟨id, size, [], true⟩ (b.moments commands) p) :
    Delivers b.publisher.sequence id size (b.moments commands) p := by
  obtain ⟨lost, conserved, kept⟩ := carried.conserved
  rw [List.nil_append] at conserved
  have in_order := (List.IsPrefix.sublist ⟨lost, conserved.symm⟩).trans (deliveredOn_sublist id _)
  have numbers := b.updates_numbered commands
  refine ⟨?_, fun u mem => ?_, fun m mem accepted c there => ?_, ⟨lost, conserved.symm⟩,
    fun still => ?_, carried.open_iff, carried.silent, carried.attached_iff⟩
  -- What the reader has or waits for is among the updates made since, which are numbered in order.
  · refine List.Pairwise.sublist (in_order.map Update.sequence) ?_
    rw [numbers]
    exact List.pairwise_lt_range'
  · have numbered := List.mem_map_of_mem (f := Update.sequence) (in_order.mem mem)
    rw [numbers, List.mem_range'_1] at numbered
    exact numbered.1
  · obtain ⟨u, made, after⟩ := Moment.exists_offer accepted there
    obtain ⟨capacity, fits⟩ := carried.fits m mem c there
    refine ⟨u, made, fits, ?_⟩
    -- Within its capacity a channel is full when it has reached it.
    by_cases full : c.queue.length = size
    · rw [after, if_pos full, Channel.offer, if_pos (by simp [Channel.isFull, capacity, full])]
    · have less : c.queue.length < size := lt_of_le_of_ne fits full
      rw [after, if_neg full, Channel.offer, if_neg (by simpa [Channel.isFull, capacity] using less)]
  · obtain rfl := kept still
    rw [List.append_nil] at conserved
    refine ⟨conserved.symm, ?_⟩
    rw [← carried.counted still, conserved, List.length_append]

/-- The sequence number counts the accepted fills, the drop counter sums up what each channel dropped, and
every channel gives its reader, in order and once, the updates since its opening that it did not drop. -/
theorem updates_delivered (settings : Settings) :
    let b := (ofSettings settings).value
    (∀ commands,
        let ms := b.moments commands
        let p := (b.run commands).1.publisher
        p.sequence = ms.countP Moment.accepted ∧
          (updates ms).map Update.sequence = List.range' 1 p.sequence ∧
          p.dropped = ((openings ms).map fun id => dropsOn id ms).sum) ∧
      ∀ before capacity commands,
        let opener := (b.run before).1
        let s := opener.step (.openChannel capacity)
        let id := opener.publisher.nextChannel
        let ms := s.book.moments commands
        s.answer = .id id ∧
          dropsOn id (b.moments (before ++ .openChannel capacity :: commands)) = dropsOn id ms ∧
          Delivers opener.publisher.sequence id (max (capacity.getD opener.channelCapacity) 1) ms
            (b.run (before ++ .openChannel capacity :: commands)).1.publisher := by
  intro b
  have sound : b.publisher.Sound := ⟨List.nodup_nil, fun _ mem => by cases mem⟩
  constructor
  · intro commands ms p
    have counted : p.sequence = ms.countP Moment.accepted :=
      (b.sequence_run commands).trans (Nat.zero_add _)
    have opened : List.range p.nextChannel = openings ms := b.range_nextChannel_run commands
    refine ⟨counted, ?_, ?_⟩
    · rw [counted]
      exact b.updates_numbered commands
    · rw [← opened]
      exact (dropped_run sound commands le_rfl).trans (Nat.zero_add _)
  · intro before capacity commands opener s id ms
    have opener_sound : opener.publisher.Sound := sound_run sound before
    have none_yet : opener.publisher.channel? id = none := opener_sound.channel?_of_le le_rfl
    have opened : s.book.publisher.channel? id
        = some ⟨id, max (capacity.getD opener.channelCapacity) 1, [], true⟩ := by
      refine (opener.publisher.channel?_openChannel id _).trans ?_
      rw [none_yet, if_pos rfl, Option.none_or]
    have carried := carried (b := s.book) (Nat.lt_succ_self id) opened (Nat.zero_le _) commands
    refine ⟨rfl, ?_, ?_⟩
    · have earlier := (dropsOn_of_absent (absent_before sound before (le_refl id))).2
      have opening : (⟨opener, .openChannel capacity⟩ : Moment).drops id = false := by
        simp [Moment.drops, Moment.channel?, none_yet]
      rw [moments_append, moments, dropsOn, List.countP_append, ← dropsOn, ← dropsOn, earlier,
        dropsOn_cons, opening, Nat.zero_add]
      exact Nat.zero_add _
    · rw [(b.run_append before _).1]
      exact carried.delivers

end Book

end CostBasis
