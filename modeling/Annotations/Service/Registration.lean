import Annotations.Runs.Basic
import Annotations.Runs.Ledger

/-! The life of the service: the name on the bus, the object that is registered with it, and the
calls that are scheduled for the object. The service is there from when the bus is acquired until
the name is first lost, and not again. -/

namespace Annotations.Service

open Runs IdLedger

/-- How far `g_bus_own_name` has come: the bus is acquired once, and then the name is lost and
acquired as others come and go. -/
inductive Ownership where
  | connecting | waiting | owning | over
  deriving DecidableEq

/-- `MetaAnnotationDBus`, without its id on the bus and its layer. -/
structure MetaAnnotationDBus where
  connection : Bool

/-- What keeps `registration_id`. -/
inductive Registration where
  | registrationId
  deriving DecidableEq

/-- The compositor, and what the bus library keeps for it: the object that is registered, with its
id, and the calls that are scheduled, each for the id that was registered when it came in. -/
structure Host where
  dbus : Option MetaAnnotationDBus
  registrations : IdLedger Unit Registration
  ownership : Ownership
  scheduled : List ℕ

inductive HostEvent where
  /-- The bus is acquired, and the object can be registered or not. -/
  | busAcquired (registers : Bool)
  /-- There is no bus. -/
  | noBus
  | nameAcquired
  | nameLost
  /-- The connection is closed. -/
  | closed
  /-- A method call comes in. -/
  | call
  /-- The next call that is scheduled is run or refused. -/
  | dispatch
  | unmanage
  deriving DecidableEq

namespace Host

variable (h : Host)

/-- `on_bus_acquired`. -/
def onBusAcquired (registers : Bool) : Host :=
  match h.dbus with
  | none => h
  | some _ =>
    { h with
      dbus := some ⟨true⟩
      registrations := if registers then h.registrations.connect .registrationId () else h.registrations.reset .registrationId }

/-- `on_name_lost`, with the connection if there is one. -/
def onNameLost (connection : Bool) : Host :=
  match h.dbus with
  | none => h
  | some _ =>
    { h with
      dbus := some ⟨false⟩
      registrations := if connection then h.registrations.release .registrationId else h.registrations }

/-- `meta_annotation_dbus_free`. -/
def free : Host :=
  match h.dbus with
  | none => h
  | some dbus =>
    { h with
      dbus := none
      registrations := if dbus.connection then h.registrations.release .registrationId else h.registrations
      ownership := .over }

/-- What happens once the name is unowned makes no difference. -/
def step : HostEvent → Host
  | .busAcquired registers =>
    if h.ownership = .connecting then { h with ownership := .waiting }.onBusAcquired registers else h
  | .noBus => if h.ownership = .connecting then { h with ownership := .over }.onNameLost false else h
  | .nameAcquired => if h.ownership = .waiting then { h with ownership := .owning } else h
  | .nameLost =>
    if h.ownership = .waiting ∨ h.ownership = .owning then { h with ownership := .waiting }.onNameLost true else h
  | .closed =>
    if h.ownership = .waiting ∨ h.ownership = .owning then { h with ownership := .over }.onNameLost false else h
  | .call => { h with scheduled := h.scheduled ++ h.registrations.live.map Prod.fst }
  | .dispatch => { h with scheduled := h.scheduled.tail }
  | .unmanage => h.free

/-- The next call that is scheduled runs the handler. -/
def Dispatches : Prop := ∃ id ∈ h.scheduled.head?, (h.registrations.callback id).isSome

/-- `meta_annotation_dbus_new`. -/
def new : Host := ⟨some ⟨false⟩, .empty, .connecting, []⟩

/-! ### When there is a service -/

/-- The bus has been acquired, with the object registered, and since then neither has the name been
lost nor the compositor been unmanaged. -/
def Serving (events : List HostEvent) : Prop :=
  ∃ before after, events = before ++ .busAcquired true :: after ∧ (run step new before).ownership = .connecting ∧
    .nameLost ∉ after ∧ .unmanage ∉ after

theorem not_serving_nil : ¬ Serving [] := by
  rintro ⟨before, after, hevents, -⟩
  simp at hevents

theorem serving_concat (events : List HostEvent) (event : HostEvent) : Serving (events ++ [event]) ↔
    event = .busAcquired true ∧ (run step new events).ownership = .connecting ∨
      Serving events ∧ event ≠ .nameLost ∧ event ≠ .unmanage := by
  constructor
  · rintro ⟨before, after, hevents, hconnecting, hlost, hunmanage⟩
    cases after using List.reverseRecOn with
    | nil =>
      obtain ⟨rfl, hevent⟩ := List.append_inj' hevents rfl
      exact .inl ⟨List.singleton_inj.mp hevent, hconnecting⟩
    | append_singleton after last =>
      rw [← List.cons_append, ← List.append_assoc] at hevents
      obtain ⟨hbefore, hlast⟩ := List.append_inj' hevents rfl
      obtain rfl := List.singleton_inj.mp hlast
      simp only [List.mem_append, List.mem_singleton, not_or] at hlost hunmanage
      exact .inr ⟨⟨before, after, hbefore, hconnecting, hlost.1, hunmanage.1⟩, Ne.symm hlost.2, Ne.symm hunmanage.2⟩
  · rintro (⟨rfl, hconnecting⟩ | ⟨⟨before, after, rfl, hconnecting, hlost, hunmanage⟩, hnotLost, hnotUnmanage⟩)
    · exact ⟨events, [], rfl, hconnecting, List.not_mem_nil, List.not_mem_nil⟩
    · refine ⟨before, after ++ [event], by simp, hconnecting, ?_, ?_⟩
      · simp [hlost, hnotLost.symm]
      · simp [hunmanage, hnotUnmanage.symm]

/-- The object is registered just as long as there is a service, and its id is kept. -/
structure Serves (h : Host) (serving : Prop) : Prop where
  kept : h.registrations.Kept fun _ => Registration.registrationId
  registered : h.registrations.ids .registrationId ≠ 0 ↔ serving
  connected : serving → h.dbus = some ⟨true⟩ ∧ (h.ownership = .waiting ∨ h.ownership = .owning)
  fresh : h.ownership = .connecting → h.dbus = some ⟨false⟩
  free : h.dbus = none → h.ownership = .over

variable {h} {serving serving' : Prop}

theorem Serves.iff (serving : Prop) (hs : Serves h serving) (hiff : serving ↔ serving') : Serves h serving' := by
  rwa [← propext hiff]

/-- There is no service, and nothing is registered. -/
theorem Serves.none (hkept : h.registrations.Kept fun _ => Registration.registrationId)
    (hids : h.registrations.ids .registrationId = 0) (hfresh : h.ownership = .connecting → h.dbus = some ⟨false⟩)
    (hfree : h.dbus = none → h.ownership = .over) : Serves h False :=
  ⟨hkept, by simp [hids], False.elim, hfresh, hfree⟩

theorem serves_new : Serves new False := .none kept_empty rfl (fun _ => rfl) nofun

/-- Nothing but the name changes hands, or calls come and go. -/
theorem Serves.of_same {h' : Host} (hs : Serves h serving) (hdbus : h'.dbus = h.dbus)
    (hregistrations : h'.registrations = h.registrations)
    (hownership : h'.ownership = h.ownership ∨ h.ownership = .waiting ∧ h'.ownership = .owning) : Serves h' serving where
  kept := hregistrations ▸ hs.kept
  registered := hregistrations ▸ hs.registered
  connected hserving := by
    obtain ⟨hconnected, howner⟩ := hs.connected hserving
    refine ⟨hdbus.trans hconnected, ?_⟩
    rcases hownership with hsame | ⟨-, howning⟩
    · rwa [hsame]
    · exact .inr howning
  fresh hconnecting := by
    rcases hownership with hsame | ⟨-, howning⟩
    · exact hdbus.trans (hs.fresh (hsame.symm.trans hconnecting))
    · rw [howning] at hconnecting
      cases hconnecting
  free hnone := by
    have hover := hs.free (hdbus.symm.trans hnone)
    rcases hownership with hsame | ⟨hwaiting, -⟩
    · rwa [hsame]
    · rw [hover] at hwaiting
      cases hwaiting

theorem Serves.ids_of_connecting (hs : Serves h serving) (hconnecting : h.ownership = .connecting) :
    h.registrations.ids .registrationId = 0 := by
  by_contra hids
  obtain ⟨-, howner⟩ := hs.connected (hs.registered.mp hids)
  rw [hconnecting] at howner
  simp at howner

theorem Serves.not_serving_of_connecting (hs : Serves h serving) (hconnecting : h.ownership = .connecting) : ¬ serving :=
  fun hserving => hs.registered.mpr hserving (hs.ids_of_connecting hconnecting)

theorem serves_busAcquired (hs : Serves h serving) (registers : Bool) : Serves (h.step (.busAcquired registers))
    (registers = true ∧ h.ownership = .connecting ∨ serving) := by
  change Serves (if h.ownership = .connecting then _ else h) _
  split_ifs with hownership
  · have hids := hs.ids_of_connecting hownership
    have hnot := hs.not_serving_of_connecting hownership
    simp only [onBusAcquired, hs.fresh hownership]
    cases registers with
    | true =>
      refine Serves.iff True ⟨hs.kept.connect rfl hids, ?_, ?_, nofun, nofun⟩ (by simp [hownership])
      · have hpos := hs.kept.next_pos
        simp only [reduceIte, ids_connect, iff_true]
        omega
      · exact fun _ => ⟨rfl, .inl rfl⟩
    | false =>
      refine Serves.iff False (.none (hs.kept.reset hids) ?_ nofun nofun) (by simp [hnot])
      simp
  · exact hs.iff _ (by simp [hownership])

theorem serves_nameLost (hs : Serves h serving) : Serves (h.step .nameLost) False := by
  change Serves (if h.ownership = .waiting ∨ h.ownership = .owning then _ else h) _
  split_ifs with hownership
  · cases hdbus : h.dbus with
    | none =>
      have hover := hs.free hdbus
      rw [hover] at hownership
      simp at hownership
    | some dbus =>
      simp only [onNameLost]
      exact .none (hs.kept.release _) (by simp) nofun nofun
  · refine .none hs.kept ?_ hs.fresh hs.free
    by_contra hids
    exact hownership (hs.connected (hs.registered.mp hids)).2

theorem serves_unmanage (hs : Serves h serving) : Serves (h.step .unmanage) False := by
  change Serves h.free _
  unfold Host.free
  split
  next hdbus =>
    refine .none hs.kept ?_ hs.fresh hs.free
    by_contra hids
    have hconnected := (hs.connected (hs.registered.mp hids)).1
    rw [hdbus] at hconnected
    cases hconnected
  next dbus hdbus =>
    split_ifs with hconnection
    · exact .none (hs.kept.release _) (by simp) nofun fun _ => rfl
    · refine .none hs.kept ?_ nofun fun _ => rfl
      by_contra hids
      have hconnected := (hs.connected (hs.registered.mp hids)).1
      rw [hdbus] at hconnected
      exact hconnection (congrArg MetaAnnotationDBus.connection (Option.some.inj hconnected))

theorem serves_step (hs : Serves h serving) {event : HostEvent} (hclosed : event ≠ .closed) :
    Serves (h.step event) (event = .busAcquired true ∧ h.ownership = .connecting ∨
      serving ∧ event ≠ .nameLost ∧ event ≠ .unmanage) := by
  cases event with
  | closed => exact absurd rfl hclosed
  | call => exact Serves.iff serving (hs.of_same rfl rfl (.inl rfl)) (by simp)
  | dispatch => exact Serves.iff serving (hs.of_same rfl rfl (.inl rfl)) (by simp)
  | nameAcquired =>
    refine Serves.iff serving ?_ (by simp)
    change Serves (if h.ownership = .waiting then _ else h) serving
    split_ifs with hwaiting
    · exact hs.of_same rfl rfl (.inr ⟨hwaiting, rfl⟩)
    · exact hs
  | busAcquired registers => exact (serves_busAcquired hs registers).iff _ (by simp)
  | noBus =>
    change Serves (if h.ownership = .connecting then _ else h) _
    split_ifs with hownership
    · have hnot := hs.not_serving_of_connecting hownership
      simp only [onNameLost, hs.fresh hownership]
      exact Serves.iff False (.none hs.kept (hs.ids_of_connecting hownership) nofun nofun) (by simp [hnot])
    · exact hs.iff _ (by simp)
  | nameLost => exact (serves_nameLost hs).iff _ (by simp)
  | unmanage => exact (serves_unmanage hs).iff _ (by simp)

theorem serves_after (events : List HostEvent) (hclosed : .closed ∉ events) :
    Serves (run step new events) (Serving events) := by
  induction events using List.reverseRecOn with
  | nil => exact serves_new.iff _ (by simp [not_serving_nil])
  | append_singleton events event ih =>
    simp only [List.mem_append, List.mem_singleton, not_or] at hclosed
    have hstep := serves_step (ih hclosed.1) (Ne.symm hclosed.2)
    rw [run_concat]
    exact hstep.iff _ (serving_concat events event).symm

/-- As long as the connection is not closed the object is registered, once and no more, just while
there is a service; and a call that is dispatched finds the service there, not freed. Calls may have
been scheduled long before, and the name may have been acquired again since it was lost. -/
theorem serving_iff (events : List HostEvent) (hclosed : .closed ∉ events) :
    let h := run step new events
    (h.registrations.live ≠ [] ↔ Serving events) ∧ h.registrations.live.length ≤ 1 ∧
      (h.Dispatches → Serving events ∧ h.dbus = some ⟨true⟩) := by
  intro h
  have hs : Serves h (Serving events) := serves_after events hclosed
  have hlive : h.registrations.live ≠ [] ↔ Serving events := by
    rw [← hs.registered]
    constructor
    · intro hne
      obtain ⟨e, he⟩ := List.exists_mem_of_ne_nil _ hne
      exact hs.kept.ids_ne_zero he
    · intro hids
      obtain ⟨e, he, -⟩ := hs.kept.alive .registrationId hids
      exact List.ne_nil_of_mem he
  refine ⟨hlive, ?_, fun ⟨id, _, hsome⟩ => ?_⟩
  · match hlist : h.registrations.live with
    | [] => exact Nat.zero_le 1
    | [e] => exact le_rfl
    | e :: e' :: rest =>
      have hsame : e = e' := hs.kept.name_unique (by simp [hlist]) (by simp [hlist]) rfl
      have hnodup := hs.kept.nodup
      rw [hlist, hsame] at hnodup
      simp at hnodup
  · obtain ⟨k, hk⟩ := Option.isSome_iff_exists.mp hsome
    have hserving := hlive.mp (List.ne_nil_of_mem (mem_of_callback hk))
    exact ⟨hserving, (hs.connected hserving).1⟩

/-- A call comes in, and then another service takes the name and gives it back. -/
theorem serving_iff_replaced :
    let events := [.busAcquired true, .nameAcquired, .call, .nameLost, .nameAcquired, .call]
    let h := run step new events
    (h.registrations.live ≠ [] ↔ Serving events) ∧ h.registrations.live.length ≤ 1 ∧
      (h.Dispatches → Serving events ∧ h.dbus = some ⟨true⟩) :=
  serving_iff _ (by decide)

end Host

end Annotations.Service
