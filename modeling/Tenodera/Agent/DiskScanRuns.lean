import Tenodera.Agent.DiskScans
import Tenodera.Lib.Exclusive

/-!
# Runs of disk scans

One lemma says what a step of a task does, one what a step of the router does to the tasks.
`scans_law` is about the runs: who holds the flag, and what a request is answered with.
-/

namespace Tenodera.Agent.DiskScans

open Protocol StreamLoop Transition

/-! ## One step of a task -/

section

variable {scanning scanning' receiving : Bool} {t t' : Task} {e : Event} {m : Message}

/-- What the locals of a task are, where it stands. -/
def Task.Inv (t : Task) : Prop :=
  OnlyTrue t.shutdown ∧
    match t.pc with
    | .ready | .validate | .swap _ => ¬ t.guard ∧ ¬ t.child ∧ ¬ t.aborted
    | .spawn _ => t.guard ∧ ¬ t.child ∧ ¬ t.aborted
    | .select _ => t.guard ∧ t.child ∧ ¬ t.aborted
    | .drain _ => t.guard ∧ t.child ∧ t.aborted
    | .wait _ => t.guard ∧ t.child
    | .data _ | .close => ¬ t.child ∧ ¬ t.aborted
    | .drop => ¬ t.child
    | .ended => ¬ t.guard ∧ ¬ t.child

/-- What a task has had to say, where it stands. -/
def Task.Told (t : Task) (msgs : List Message) : Prop :=
  match t.pc with
  | .ready => msgs = []
  | .close => ∃ data, msgs = [.ready t.channel, .data t.channel data]
  | .drop | .ended =>
    if t.aborted then msgs = [.ready t.channel]
    else ∃ data, msgs = [.ready t.channel, .data t.channel data, .close t.channel none]
  | _ => msgs = [.ready t.channel]

/-- What was sent is what the task has had to say, or less when messages may have been lost. -/
def Task.Sent (complete : Prop) (t : Task) : Prop :=
  ∃ msgs, t.Told msgs ∧ t.sent.Sublist msgs ∧ (complete → t.sent = msgs)

/-- What a step of a task does to it and to the flag. -/
structure Goes (scanning receiving : Bool) (t : Task) (e : Event) (scanning' : Bool) (t' : Task) :
    Prop where
  inv : t'.Inv
  session : t'.session = t.session
  closed : t'.closed = t.closed
  rank : t'.pc.rank < t.pc.rank
  flag : (scanning' = scanning ∧ t'.guard = t.guard) ∨
    (scanning = false ∧ scanning' = true ∧ t'.guard = true) ∨
    (e = .drop ∧ scanning' = false ∧ t.guard = true ∧ t'.guard = false)
  sent : ∀ complete : Prop, (complete → receiving = true) → t.Sent complete → t'.Sent complete
  cut : t'.aborted → t.aborted ∨ ∃ b, e = .wake b ∧ b ≠ .readToEnd

theorem Task.send_sent (receiving : Bool) (t : Task) (m : Message) :
    (t.send receiving m).sent = if receiving then t.sent ++ [m] else t.sent := by
  unfold Task.send
  split_ifs <;> rfl

/-- One more message that was sent, or lost. -/
theorem sent_send {complete : Prop} {msgs : List Message} (hsub : t.sent.Sublist msgs)
    (hall : complete → t.sent = msgs) (hc : complete → receiving = true) :
    (t.send receiving m).sent.Sublist (msgs ++ [m]) ∧
      (complete → (t.send receiving m).sent = msgs ++ [m]) := by
  rw [Task.send_sent]
  constructor
  · split_ifs
    · exact hsub.append_right [m]
    · exact hsub.trans (List.sublist_append_left msgs [m])
  · intro h
    rw [if_pos (hc h), hall h]

/-- A step on which nothing is sent, and after which the task has had to say what it had before. -/
theorem Task.Sent.of_told {complete : Prop} (h : t.Sent complete) (hsent : t'.sent = t.sent)
    (htold : ∀ msgs, t.Told msgs → t'.Told msgs) : t'.Sent complete := by
  obtain ⟨msgs, hmsgs, hsub, hall⟩ := h
  refine ⟨msgs, htold msgs hmsgs, ?_, ?_⟩
  · rwa [hsent]
  · rwa [hsent]

/-- A step on which `m` is sent. -/
theorem Task.Sent.of_send {complete : Prop} (h : t.Sent complete)
    (hc : complete → receiving = true) (hsent : t'.sent = (t.send receiving m).sent)
    (htold : ∀ msgs, t.Told msgs → t'.Told (msgs ++ [m])) : t'.Sent complete := by
  obtain ⟨msgs, hmsgs, hsub, hall⟩ := h
  refine ⟨msgs ++ [m], htold msgs hmsgs, ?_, ?_⟩
  · rw [hsent]
    exact (sent_send hsub hall hc).1
  · rw [hsent]
    exact (sent_send hsub hall hc).2

@[simp]
theorem Task.send_fields (receiving : Bool) (t : Task) (m : Message) :
    (t.send receiving m).session = t.session ∧ (t.send receiving m).channel = t.channel ∧
      (t.send receiving m).aborted = t.aborted ∧ (t.send receiving m).guard = t.guard ∧
      (t.send receiving m).child = t.child ∧ (t.send receiving m).shutdown = t.shutdown ∧
      (t.send receiving m).closed = t.closed := by
  unfold Task.send
  split_ifs <;> exact ⟨rfl, rfl, rfl, rfl, rfl, rfl, rfl⟩

/-- A step that moves the task on without a message. -/
theorem Goes.of_quiet {pc : Pc} {aborted guard child : Bool} {shutdown : Watch}
    (inv : { t with pc, aborted, guard, child, shutdown }.Inv) (rank : pc.rank < t.pc.rank)
    (flag : (scanning' = scanning ∧ guard = t.guard) ∨
      (scanning = false ∧ scanning' = true ∧ guard = true) ∨
      (e = .drop ∧ scanning' = false ∧ t.guard = true ∧ guard = false))
    (htold : ∀ msgs, t.Told msgs → { t with pc, aborted, guard, child, shutdown }.Told msgs)
    (cut : aborted → t.aborted ∨ ∃ b, e = .wake b ∧ b ≠ .readToEnd) :
    Goes scanning receiving t e scanning' { t with pc, aborted, guard, child, shutdown } where
  inv := inv
  session := rfl
  closed := rfl
  rank := rank
  flag := flag
  sent _ _ hs := hs.of_told rfl htold
  cut := cut

/-- A step that sends a message. -/
theorem Goes.of_send {pc : Pc} (inv : { t.send receiving m with pc }.Inv)
    (rank : pc.rank < t.pc.rank)
    (htold : ∀ msgs, t.Told msgs → { t.send receiving m with pc }.Told (msgs ++ [m])) :
    Goes scanning receiving t e scanning { t.send receiving m with pc } where
  inv := inv
  session := by simp
  closed := by simp
  rank := rank
  flag := .inl ⟨rfl, by simp⟩
  sent _ hc hs := hs.of_send hc rfl htold
  cut ha := .inl (by simpa using ha)

theorem goes_of_step (hI : t.Inv) (h : t.step scanning receiving e = some (scanning', t')) :
    Goes scanning receiving t e scanning' t' := by
  obtain ⟨honly, hlocals⟩ := hI
  unfold Task.step at h
  split at h
  case h_1 hpc =>
    simp only [hpc] at hlocals
    cases h
    refine .of_send ⟨by simpa using honly, by simpa using hlocals⟩ (by simp [hpc, Pc.rank]) ?_
    simp [Task.Told, hpc]
  case h_2 seen hpc =>
    simp only [hpc] at hlocals
    split at h <;> cases h
    · exact .of_quiet ⟨honly, hlocals⟩ (by simp [hpc, Pc.rank]) (.inl ⟨rfl, rfl⟩)
        (by simp [Task.Told, hpc]) .inl
    · exact .of_quiet ⟨honly, hlocals.2⟩ (by simp [hpc, Pc.rank]) (.inl ⟨rfl, rfl⟩)
        (by simp [Task.Told, hpc]) .inl
  case h_3 path hpc =>
    simp only [hpc] at hlocals
    split_ifs at h with hscanning <;> cases h
    · exact .of_quiet ⟨honly, hlocals.2⟩ (by simp [hpc, Pc.rank]) (.inl ⟨hscanning.symm, rfl⟩)
        (by simp [Task.Told, hpc]) .inl
    · exact .of_quiet ⟨honly, rfl, hlocals.2⟩ (by simp [hpc, Pc.rank])
        (.inr (.inl ⟨by simpa using hscanning, rfl, rfl⟩)) (by simp [Task.Told, hpc]) .inl
  case h_4 path error hpc =>
    simp only [hpc] at hlocals
    cases h
    exact .of_quiet ⟨honly, hlocals.2⟩ (by simp [hpc, Pc.rank]) (.inl ⟨rfl, rfl⟩)
      (by simp [Task.Told, hpc]) .inl
  case h_5 path hpc =>
    simp only [hpc] at hlocals
    cases h
    exact .of_quiet ⟨honly, hlocals.1, rfl, hlocals.2.2⟩ (by simp [hpc, Pc.rank])
      (.inl ⟨rfl, rfl⟩) (by simp [Task.Told, hpc]) .inl
  case h_6 path b hpc =>
    simp only [hpc] at hlocals
    obtain ⟨⟨left, shutdown⟩, hloop, heq⟩ := Option.map_eq_some_iff.1 h
    obtain ⟨rfl, hleaves, hshutdown⟩ :=
      storageDu_cases (s := ⟨true, t.shutdown, 0⟩) honly hloop
    have honly' : OnlyTrue shutdown := by
      obtain rfl | rfl := hshutdown
      · exact honly
      · exact nofun
    simp only [not_true_eq_false, if_false] at heq
    split_ifs at heq with hb <;> cases heq
    · exact .of_quiet ⟨honly', hlocals.1, hlocals.2.1⟩ (by simp [hpc, Pc.rank])
        (.inl ⟨rfl, rfl⟩) (by simp [Task.Told, hpc]) .inl
    · exact .of_quiet ⟨honly', hlocals.1, hlocals.2.1, rfl⟩ (by simp [hpc, Pc.rank])
        (.inl ⟨rfl, rfl⟩) (by simp [Task.Told, hpc]) fun _ => .inr ⟨b, rfl, hb⟩
  case h_7 path hpc =>
    simp only [hpc] at hlocals
    cases h
    exact .of_quiet ⟨honly, hlocals.1, hlocals.2.1⟩ (by simp [hpc, Pc.rank]) (.inl ⟨rfl, rfl⟩)
      (by simp [Task.Told, hpc]) .inl
  case h_8 path output dir hpc =>
    simp only [hpc] at hlocals
    cases h
    by_cases ha : t.aborted
    · rw [if_pos ha]
      exact .of_quiet ⟨honly, Bool.false_ne_true⟩ (by simp [hpc, Pc.rank]) (.inl ⟨rfl, rfl⟩)
        (by simp [Task.Told, hpc, ha]) .inl
    · rw [if_neg ha]
      exact .of_quiet ⟨honly, Bool.false_ne_true, ha⟩ (by simp [hpc, Pc.rank]) (.inl ⟨rfl, rfl⟩)
        (by simp [Task.Told, hpc]) .inl
  case h_9 data hpc =>
    simp only [hpc] at hlocals
    cases h
    refine .of_send ⟨by simpa using honly, by simpa using hlocals⟩ (by simp [hpc, Pc.rank]) ?_
    simp [Task.Told, hpc]
  case h_10 hpc =>
    simp only [hpc] at hlocals
    cases h
    refine .of_send ⟨by simpa using honly, by simpa using hlocals.1⟩ (by simp [hpc, Pc.rank]) ?_
    simp [Task.Told, hpc, hlocals.2]
  case h_11 hpc =>
    simp only [hpc] at hlocals
    cases h
    refine .of_quiet ⟨honly, Bool.false_ne_true, hlocals⟩ (by simp [hpc, Pc.rank]) ?_
      (by simp [Task.Told, hpc]) .inl
    by_cases hguard : t.guard
    · exact .inr (.inr ⟨rfl, if_pos hguard, hguard, rfl⟩)
    · exact .inl ⟨if_neg hguard, by simpa using hguard⟩
  case h_12 => cases h

/-- A task that has not ended can go on: its scan at least by the time-out. -/
theorem exists_step (scanning receiving : Bool) (h : t.pc ≠ .ended) :
    ∃ e, (t.step scanning receiving e).isSome := by
  unfold Task.step
  cases hpc : t.pc with
  | ready => exact ⟨.ready, rfl⟩
  | validate =>
    refine ⟨.validate ⟨none, .ok false⟩, ?_⟩
    dsimp only
    split <;> rfl
  | swap path =>
    refine ⟨.swap, ?_⟩
    dsimp only
    split_ifs <;> rfl
  | spawn path => exact ⟨.spawn (.ok ()), rfl⟩
  | select path => exact ⟨.wake .timeout, rfl⟩
  | drain path => exact ⟨.drained, rfl⟩
  | wait path => exact ⟨.wait "" none, rfl⟩
  | data data => exact ⟨.data, rfl⟩
  | close => exact ⟨.close, rfl⟩
  | drop => exact ⟨.drop, rfl⟩
  | ended => exact absurd hpc h

end

/-! ## One step of the agent -/

section

variable {s s' : State} {a : Action} {t t' : Task} {i : ℕ}

/-- What the router does to a task, it does to its shutdown channel. -/
structure Notified (t t' : Task) : Prop where
  session : t'.session = t.session
  channel : t'.channel = t.channel
  pc : t'.pc = t.pc
  aborted : t'.aborted = t.aborted
  guard : t'.guard = t.guard
  child : t'.child = t.child
  sent : t'.sent = t.sent
  closed : t.closed → t'.closed
  onlyTrue : OnlyTrue t.shutdown → OnlyTrue t'.shutdown

theorem Notified.refl (t : Task) : Notified t t := ⟨rfl, rfl, rfl, rfl, rfl, rfl, rfl, id, id⟩

theorem notified_dropSender (t : Task) : Notified t t.dropSender :=
  ⟨rfl, rfl, rfl, rfl, rfl, rfl, rfl, id, id⟩

theorem notified_sendShutdown (t : Task) : Notified t t.sendShutdown :=
  ⟨rfl, rfl, rfl, rfl, rfl, rfl, rfl, fun _ => rfl, fun _ _ => rfl⟩

theorem Notified.inv (h : Notified t t') (hI : t.Inv) : t'.Inv := by
  refine ⟨h.onlyTrue hI.1, ?_⟩
  rw [h.pc, h.guard, h.child, h.aborted]
  exact hI.2

theorem Notified.sent_of (h : Notified t t') {complete : Prop} (hs : t.Sent complete) :
    t'.Sent complete := by
  refine hs.of_told h.sent fun msgs hmsgs => ?_
  unfold Task.Told
  rw [h.pc, h.channel, h.aborted]
  exact hmsgs

/-- What a step of the router does to the state: the tasks are notified, and one may join them. -/
structure Routed (s s' : State) : Prop where
  tasks : ∃ (f : ℕ → Task → Task) (new : List Task), (∀ i t, Notified t (f i t)) ∧
    (∀ t ∈ new, ∃ channel options, t = .new s.session channel options) ∧
    s'.tasks = s.tasks.mapIdx f ++ new
  scanning : s'.scanning = s.scanning
  session : (s'.session = s.session ∧ (s'.receiving → s.receiving)) ∨
    s'.session = s.session + 1

theorem modify_eq_mapIdx (f : Task → Task) (l : List Task) (i : ℕ) :
    l.modify i f = l.mapIdx fun j t => if i = j then f t else t := by
  refine List.ext_getElem? fun j => ?_
  rw [List.getElem?_modify, List.getElem?_mapIdx]
  rfl

theorem exists_mapIdx_change {f : Task → Task} (hf : ∀ t, Notified t (f t)) (s : State)
    (channel : ChannelId) :
    ∃ g : ℕ → Task → Task, (∀ i t, Notified t (g i t)) ∧
      s.change f channel = s.tasks.mapIdx g := by
  unfold State.change
  split
  · rename_i i _
    refine ⟨_, fun j t => ?_, modify_eq_mapIdx f s.tasks i⟩
    split_ifs
    · exact hf t
    · exact .refl t
  · refine ⟨fun _ t => t, fun _ t => .refl t, ?_⟩
    exact (List.ext_getElem? fun j => by simp).symm

/-- Everything that a step can be. -/
theorem step_cases (h : s.step a = some s') :
    ((∀ i e, a ≠ .task i e) ∧ Routed s s') ∨
      ∃ i e t scanning t', a = .task i e ∧ s.tasks[i]? = some t ∧
        t.step s.scanning (decide (s.Lasts t)) e = some (scanning, t') ∧
        s' = { s with scanning, tasks := s.tasks.set i t' } := by
  cases a with
  | open_ channel options =>
    cases h
    obtain ⟨f, hf, heq⟩ := exists_mapIdx_change notified_dropSender s channel
    refine .inl ⟨nofun, ⟨f, _, hf, ?_, congrArg (· ++ _) heq⟩, rfl, .inl ⟨rfl, id⟩⟩
    intro t ht
    exact ⟨channel, options, List.mem_singleton.1 ht⟩
  | openOther channel =>
    cases h
    obtain ⟨f, hf, heq⟩ := exists_mapIdx_change notified_dropSender s channel
    refine .inl ⟨nofun, ⟨f, [], hf, List.forall_mem_nil _, ?_⟩, rfl, .inl ⟨rfl, id⟩⟩
    exact heq.trans (List.append_nil _).symm
  | close channel =>
    cases h
    obtain ⟨f, hf, heq⟩ := exists_mapIdx_change notified_sendShutdown s channel
    refine .inl ⟨nofun, ⟨f, [], hf, List.forall_mem_nil _, ?_⟩, rfl, .inl ⟨rfl, id⟩⟩
    exact heq.trans (List.append_nil _).symm
  | writerEnds =>
    cases h
    refine .inl ⟨nofun, ⟨fun _ t => t, [], fun _ t => .refl t, List.forall_mem_nil _, ?_⟩, rfl,
      .inl ⟨rfl, ?_⟩⟩
    · exact List.ext_getElem? fun j => by simp
    · exact fun h => absurd h Bool.false_ne_true
  | sessionEnds =>
    cases h
    refine .inl ⟨nofun, ⟨fun _ => Task.dropSender, [], fun _ => notified_dropSender,
      List.forall_mem_nil _, ?_⟩, rfl,
      .inr rfl⟩
    exact List.ext_getElem? fun j => by simp
  | task i e =>
    obtain ⟨t, ht, h⟩ := Option.bind_eq_some_iff.1 h
    obtain ⟨⟨scanning, t'⟩, hstep, h⟩ := Option.bind_eq_some_iff.1 h
    exact .inr ⟨i, e, t, scanning, t', rfl, ht, hstep, (Option.some.inj h).symm⟩

/-- The tasks after a step of the router. -/
theorem Routed.cases_of_mem (h : Routed s s') (ht : t' ∈ s'.tasks) :
    (∃ t ∈ s.tasks, Notified t t') ∨
      ∃ channel options, t' = .new s.session channel options := by
  obtain ⟨f, new, hf, hnew, heq⟩ := h.tasks
  rw [heq, List.mem_append, List.mem_mapIdx] at ht
  rcases ht with ⟨i, hi, rfl⟩ | ht
  · exact .inl ⟨_, List.getElem_mem hi, hf i _⟩
  · exact .inr (hnew t' ht)

theorem Routed.exists_notified (h : Routed s s') (ht : s.tasks[i]? = some t) :
    ∃ t', s'.tasks[i]? = some t' ∧ Notified t t' := by
  obtain ⟨f, new, hf, -, heq⟩ := h.tasks
  refine ⟨f i t, ?_, hf i t⟩
  rw [heq, List.getElem?_append_left]
  · rw [List.getElem?_mapIdx, ht, Option.map_some]
  · rw [List.length_mapIdx]
    exact (List.getElem?_eq_some_iff.1 ht).1

theorem Routed.held (h : Routed s s') (hheld : Exclusive.Held Task.guard s.scanning s.tasks) :
    Exclusive.Held Task.guard s'.scanning s'.tasks := by
  obtain ⟨f, new, hf, hnew, heq⟩ := h.tasks
  rw [heq, h.scanning]
  refine Exclusive.Held.append (hheld.of_map_eq ?_) fun t ht => ?_
  · refine List.ext_getElem? fun j => ?_
    simp only [List.getElem?_map, List.getElem?_mapIdx, Option.map_map]
    refine congrArg (Option.map · _) (funext fun t => ?_)
    exact (hf j t).guard
  · obtain ⟨channel, options, rfl⟩ := hnew t ht
    rfl

/-- A session that lasts after a step of the router has lasted before. -/
theorem Routed.lasts (h : Routed s s') (hle : t.session ≤ s.session) (hlasts : s'.Lasts t) :
    s.Lasts t := by
  obtain ⟨hsession, hreceiving⟩ := hlasts
  rcases h.session with ⟨heq, himp⟩ | heq
  · exact ⟨hsession.trans heq, himp hreceiving⟩
  · omega

/-! ## Runs -/

/-- What holds in every state. -/
structure State.Inv (s : State) : Prop where
  task : ∀ t ∈ s.tasks, t.Inv
  session : ∀ t ∈ s.tasks, t.session ≤ s.session
  sent : ∀ t ∈ s.tasks, t.Sent (s.Lasts t)
  held : Exclusive.Held Task.guard s.scanning s.tasks

theorem inv_init : State.init.Inv :=
  ⟨List.forall_mem_nil _, List.forall_mem_nil _, List.forall_mem_nil _, Exclusive.held_nil⟩

theorem new_inv (session : ℕ) (channel : ChannelId) (options : ChannelOpenOptions) :
    (Task.new session channel options).Inv :=
  ⟨fun h => absurd h Bool.false_ne_true, Bool.false_ne_true, Bool.false_ne_true,
    Bool.false_ne_true⟩

theorem new_sent (session : ℕ) (channel : ChannelId) (options : ChannelOpenOptions)
    (complete : Prop) : (Task.new session channel options).Sent complete :=
  ⟨[], rfl, .slnil, fun _ => rfl⟩

theorem Task.Sent.mono {p q : Prop} (h : t.Sent p) (hqp : q → p) : t.Sent q := by
  obtain ⟨msgs, hmsgs, hsub, hall⟩ := h
  exact ⟨msgs, hmsgs, hsub, fun hq => hall (hqp hq)⟩

theorem Routed.inv (h : Routed s s') (hI : s.Inv) : s'.Inv := by
  have hle : s.session ≤ s'.session := by
    rcases h.session with ⟨heq, -⟩ | heq <;> omega
  constructor
  · intro t' ht'
    rcases h.cases_of_mem ht' with ⟨t, ht, hn⟩ | ⟨channel, options, rfl⟩
    · exact hn.inv (hI.task t ht)
    · exact new_inv s.session channel options
  · intro t' ht'
    rcases h.cases_of_mem ht' with ⟨t, ht, hn⟩ | ⟨channel, options, rfl⟩
    · rw [hn.session]
      exact (hI.session t ht).trans hle
    · exact hle
  · intro t' ht'
    rcases h.cases_of_mem ht' with ⟨t, ht, hn⟩ | ⟨channel, options, rfl⟩
    · refine (hn.sent_of (hI.sent t ht)).mono fun hlasts => ?_
      have hlasts' : s'.Lasts t := by
        rw [State.Lasts, ← hn.session]
        exact hlasts
      exact h.lasts (hI.session t ht) hlasts'
    · exact new_sent s.session channel options _
  · exact h.held hI.held

theorem inv_step (hI : s.Inv) (h : s.step a = some s') : s'.Inv := by
  rcases step_cases h with ⟨-, hrouted⟩ | ⟨i, e, t, scanning, t', -, ht, hstep, rfl⟩
  · exact hrouted.inv hI
  have hmem := List.mem_of_getElem? ht
  have hgoes := goes_of_step (hI.task t hmem) hstep
  constructor
  · intro u hu
    rcases List.mem_or_eq_of_mem_set hu with hu | rfl
    · exact hI.task u hu
    · exact hgoes.inv
  · intro u hu
    rcases List.mem_or_eq_of_mem_set hu with hu | rfl
    · exact hI.session u hu
    · rw [hgoes.session]
      exact hI.session t hmem
  · intro u hu
    rcases List.mem_or_eq_of_mem_set hu with hu | rfl
    · exact hI.sent u hu
    · refine (hgoes.sent (s.Lasts t) decide_eq_true (hI.sent t hmem)).mono fun hlasts => ?_
      rw [State.Lasts, ← hgoes.session]
      exact hlasts
  · rcases hgoes.flag with ⟨rfl, hguard⟩ | ⟨hdown, rfl, hguard⟩ | ⟨-, rfl, hguard, hguard'⟩
    · exact hI.held.set_of_eq ht hguard
    · have hheld := hI.held
      rw [hdown] at hheld
      exact hheld.take ht hguard
    · exact hI.held.release ht hguard hguard'

theorem guard_of_child (h : t.Inv) (hchild : t.child = true) : t.guard = true := by
  have hlocals := h.2
  split at hlocals <;> simp_all

theorem not_guard_of_ended (h : t.Inv) (hpc : t.pc = .ended) : ¬ t.guard := by
  have hlocals := h.2
  simp only [hpc] at hlocals
  exact hlocals.1

theorem State.Inv.exclusive (hI : s.Inv) : s.Exclusive where
  oneScan _ _ t u ht hu hct hcu :=
    hI.held.unique ht hu (guard_of_child (hI.task t (List.mem_of_getElem? ht)) hct)
      (guard_of_child (hI.task u (List.mem_of_getElem? hu)) hcu)
  held t ht := guard_of_child (hI.task t ht)
  oneHolder _ _ _ _ ht hu := hI.held.unique ht hu
  busy := hI.held.flag_iff
  released t ht := not_guard_of_ended (hI.task t ht)

theorem State.Inv.progress (hI : s.Inv) : s.Progress := by
  intro i t ht hpc
  constructor
  · obtain ⟨e, he⟩ := exists_step s.scanning (decide (s.Lasts t)) hpc
    obtain ⟨⟨scanning, t'⟩, hstep⟩ := Option.isSome_iff_exists.1 he
    refine ⟨e, ?_⟩
    simp [State.step, ht, hstep]
  · intro a s' h
    rcases step_cases h with ⟨hrouter, hrouted⟩ | ⟨j, e, u, scanning, u', rfl, hu, hstep, rfl⟩
    · obtain ⟨t', ht', hn⟩ := hrouted.exists_notified ht
      exact ⟨t', ht', (congrArg Pc.rank hn.pc).le, fun e he => absurd he (hrouter i e)⟩
    · have hgoes := goes_of_step (hI.task u (List.mem_of_getElem? hu)) hstep
      by_cases hij : j = i
      · subst hij
        obtain rfl : t = u := Option.some.inj (ht.symm.trans hu)
        have hlt := (List.getElem?_eq_some_iff.1 ht).1
        exact ⟨u', List.getElem?_set_self hlt, hgoes.rank.le, fun _ _ => hgoes.rank⟩
      · refine ⟨t, (List.getElem?_set_ne hij).trans ht, le_rfl, fun e' he => ?_⟩
        exact absurd (Action.task.inj he).1 hij

/-- The flag goes down by the end of the task that holds it alone. -/
theorem State.Inv.releases (hI : s.Inv) (a : Action) : s.Releases a := by
  intro s' h hup hdown
  rcases step_cases h with ⟨-, hrouted⟩ | ⟨i, e, t, scanning, t', rfl, ht, hstep, rfl⟩
  · rw [hrouted.scanning] at hdown
    exact absurd hup hdown
  · rcases (goes_of_step (hI.task t (List.mem_of_getElem? ht)) hstep).flag with
      ⟨heq, -⟩ | ⟨-, heq, -⟩ | ⟨rfl, -, hguard, -⟩
    · exact absurd (heq.trans hup) hdown
    · exact absurd heq hdown
    · exact ⟨i, t, rfl, ht, hguard⟩

/-- The scans that were cut off are those of requests closed or lost. -/
def State.Uncut (s : State) : Prop := ∀ t ∈ s.tasks, t.aborted → s.Lasts t → t.closed

theorem uncut_step (hI : s.Inv) (hU : s.Uncut) (hC : s.Spares a) (h : s.step a = some s') :
    s'.Uncut := by
  intro u hu haborted hlasts
  rcases step_cases h with ⟨-, hrouted⟩ | ⟨i, e, t, scanning, t', rfl, ht, hstep, rfl⟩
  · rcases hrouted.cases_of_mem hu with ⟨t, ht, hn⟩ | ⟨channel, options, rfl⟩
    · rw [hn.aborted] at haborted
      rw [State.Lasts, hn.session] at hlasts
      exact hn.closed (hU t ht haborted (hrouted.lasts (hI.session t ht) hlasts))
    · exact absurd haborted Bool.false_ne_true
  · rcases List.mem_or_eq_of_mem_set hu with hu | rfl
    · exact hU u hu haborted hlasts
    · have hmem := List.mem_of_getElem? ht
      have hgoes := goes_of_step (hI.task t hmem) hstep
      have hlasts' : s.Lasts t := by
        rw [State.Lasts, ← hgoes.session]
        exact hlasts
      rw [hgoes.closed]
      rcases hgoes.cut haborted with ha | ⟨b, rfl, hb⟩
      · exact hU t hmem ha hlasts'
      · exact (hC.resolve_left hb) t ht hlasts'

/-- A task that was not cut off has sent its Close when it ends. -/
theorem answered_of_sent (h : t.Sent True) (hpc : t.pc = .ended) (ha : ¬ t.aborted) :
    t.Answered := by
  obtain ⟨msgs, hmsgs, -, hall⟩ := h
  simp only [Task.Told, hpc, if_neg ha] at hmsgs
  obtain ⟨data, rfl⟩ := hmsgs
  refine ⟨[.ready t.channel, .data t.channel data], none, hall trivial, ?_⟩
  simp [closes]

theorem State.Uncut.answers (hU : s.Uncut) (hI : s.Inv) : s.Answers := by
  intro t ht hlasts hclosed hpc
  refine answered_of_sent ((hI.sent t ht).mono fun _ => hlasts) hpc fun ha => ?_
  exact hclosed (hU t ht ha hlasts)

theorem State.Inv.cutsOff (hI : s.Inv) : s.CutsOff := by
  rintro t ht ha hpc ⟨before, problem, hsent, -⟩
  obtain ⟨msgs, hmsgs, hsub, -⟩ := hI.sent t ht
  simp only [Task.Told, hpc, if_pos ha] at hmsgs
  subst hmsgs
  have hmem : .close t.channel problem ∈ t.sent := by simp [hsent]
  have hready := List.mem_singleton.1 (hsub.subset hmem)
  cases hready

end

/-- In every run there is one scan at a time, and the flag goes down when the scan that took it is
over.  Where no scan is cut off, every request is answered. -/
theorem scans_law (as : List Action) :
    Always State.step (fun s => s.Exclusive ∧ s.Progress ∧ s.CutsOff) .init as ∧
      Meets State.step State.Releases .init as ∧
      (Meets State.step State.Spares .init as → Always State.step State.Answers .init as) := by
  have hmeets : Meets State.step (fun _ _ => True) .init as := meets_true _ as
  refine ⟨?_, ?_, fun hC => ?_⟩
  · refine always_of_meets (fun s a t hI _ ht => inv_step hI ht) ?_ inv_init hmeets
    exact fun s hI => ⟨hI.exclusive, hI.progress, hI.cutsOff⟩
  · refine meets_of_invariant (fun s a t hI _ ht => inv_step hI ht) ?_ inv_init hmeets
    exact fun s a hI _ => hI.releases a
  · refine always_of_meets (I := fun s => s.Inv ∧ s.Uncut) ?_ (fun s hI => hI.2.answers hI.1)
      ⟨inv_init, List.forall_mem_nil _⟩ hC
    exact fun s a t hI hCa ht => ⟨inv_step hI.1 ht, uncut_step hI.1 hI.2 hCa ht⟩

/-- A scan of the root directory, up to the start of the child. -/
def started : List Action :=
  [.open_ "1" ⟨"storage.du", none, ∅⟩, .task 0 .ready, .task 0 (.validate ⟨some "/", .ok true⟩),
    .task 0 .swap, .task 0 (.spawn (.ok ()))]

example : (run State.step .init
    (started ++ [.task 0 (.wake .readToEnd), .task 0 (.wait "5\t/\n" none), .task 0 .data,
      .task 0 .close, .task 0 .drop])).map
        (fun s => (s.scanning, s.tasks.map fun t => t.sent.map (closes "1"))) =
    some (false, [[false, false, true]]) := by decide +kernel

/-- The scan takes too long. -/
theorem timedOut_unanswered : ¬ Always State.step State.Answers .init
    (started ++ [.task 0 (.wake .timeout), .task 0 .drained, .task 0 (.wait "" none),
      .task 0 .drop]) := by
  intro hall
  have hr : run State.step .init (started ++ [.task 0 (.wake .timeout), .task 0 .drained,
    .task 0 (.wait "" none), .task 0 .drop]) = some _ := rfl
  have hinv := invariant_of_run (fun s a t hI ht => inv_step hI ht) inv_init hr
  have hanswered := hall.last hr _ List.mem_cons_self ⟨rfl, rfl⟩ Bool.false_ne_true rfl
  exact hinv.cutsOff _ List.mem_cons_self rfl rfl hanswered

end Tenodera.Agent.DiskScans
