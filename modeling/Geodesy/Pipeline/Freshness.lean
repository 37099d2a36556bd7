import Geodesy.Pipeline.Invariant

/-!
# What is out of date has an unhandled record

The setups of a station follow its site log through one outbox, whose messages are the records of
`SiteLogReceived` for `CorsSiteService`, and its nodes follow its setups through another, whose
messages are those of `SiteUpdated` for `NodeService`.  Every step of the pipeline is a step of both
(`logsView_step`, `nodesView_step`).
-/

namespace Geodesy

open TransitionSystem AsynchronousEventPublisher

/-- A subscriber of the class gets the event. -/
def PublisherState.Subscribed {κ : Type*} (st : PublisherState κ) (className : String)
    (payload : κ) : Prop :=
  ∃ s ∈ st.subscribers, s.className = className ∧ s.canHandle payload = true

instance {κ : Type*} (st : PublisherState κ) (className : String) (payload : κ) :
    Decidable (st.Subscribed className payload) :=
  inferInstanceAs (Decidable (∃ s ∈ st.subscribers, _ ∧ _))

namespace Pipeline

/-- The service that an event is for is subscribed when it is published, and a handler that throws
did not call `handled` before. -/
def Orderly (p : Pipeline) : PipelineStep → Prop
  | .upload l => p.publisher.Subscribed corsSiteSubscriber.className
      (.siteLogReceived ⟨l.fourCharacterId, l.siteLogText⟩)
  | .siteLogReceived _ _ seen _ => p.publisher.Subscribed nodeSubscriber.className
      (.siteUpdated ⟨seen.fourCharacterId⟩)
  | .throws handledAt _ => handledAt = none
  | _ => True

instance (p : Pipeline) (a : PipelineStep) : Decidable (p.Orderly a) := by
  cases a <;> unfold Orderly <;> infer_instance

/-- The site log of the station that is stored is the one that was last handled. -/
def SetupsFollow (p : Pipeline) (id : String) : Prop :=
  ∀ l, p.world.store.findSiteLog id = .ok (some l) →
    ∃ read, p.world.lastLog id = some read ∧ read.Iterates l

/-- No log of the station was handled since its nodes were last updated. -/
def NodesFollow (p : Pipeline) (id : String) : Prop :=
  p.world.lastLog id = none ∨ p.world.nodesUpdated id = true

/-- The records for a class as the messages of an outbox. -/
def view (p : Pipeline) (className : String) (about : DomainEvent → Option String)
    (fresh : String → Prop) (overtaken : Prop) : Outbox.State ℕ String where
  fresh
  outstanding := p.publisher.events.Outstanding className about
  inHand := p.publisher.inHand className about
  overtaken

/-- The outbox between the site logs and the setups. -/
def logsView (p : Pipeline) : Outbox.State ℕ String :=
  p.view corsSiteSubscriber.className DomainEvent.receivedStation p.SetupsFollow
    (p.overtaken = true)

/-- The outbox between the setups and the nodes.  Setups are written by handlers only, so no update
of nodes is overtaken. -/
def nodesView (p : Pipeline) : Outbox.State ℕ String :=
  p.view nodeSubscriber.className DomainEvent.updatedStation p.NodesFollow False

variable {lib : ListUtils} {p p' : Pipeline} {a : PipelineStep}

/-! ## The loop's event matches its row -/

/-- An orderly step keeps the loop's event and its row the same. -/
lemma matches_step (hworld : p.Tracked) (h : p.publisher.Matches) (ha : p.Orderly a)
    (hstep : Takes lib p a p') : p'.publisher.Matches := by
  cases a with
  | event a =>
      obtain ⟨hloop, htakes, -, -⟩ := takes_event hstep
      exact h.loopStep htakes hloop
  | upload l =>
      obtain ⟨-, hpublisher, -⟩ := takes_upload hworld.siteLogs_nodup hstep
      rw [hpublisher]
      have hgrows := grows_foldl_publish p.publisher.subscribers
        [.siteLogReceived ⟨l.fourCharacterId, l.siteLogText⟩] p.publisher.events
      refine h.grows ?_ rfl hgrows
      exact h.coherent.grows rfl hgrows (sound_foldl_publish h.coherent.sound _ _)
  | siteLogReceived load rows seen now =>
      obtain ⟨e, w, -, -, -, -, -, htakes⟩ := takes_siteLogReceived hworld.world hstep
      exact h.handlerReturns htakes
  | siteUpdated rows now =>
      obtain ⟨e, -, -, -, htakes⟩ := takes_siteUpdated hstep
      exact h.handlerReturns htakes
  | notified now =>
      obtain ⟨-, -, -, htakes⟩ := takes_notified hstep
      exact h.handlerReturns htakes
  | throws handledAt stackTrace =>
      obtain rfl : handledAt = none := ha
      obtain ⟨htakes, -, -⟩ := takes_throws hstep
      exact h.handlerThrows htakes

/-! ## Steps that post no message and handle none -/

section Views

variable {className className' : String} {about : DomainEvent → Option String}
  {fresh fresh' : String → Prop} {overtaken overtaken' : Prop}

/-- The message at hand is not a new record. -/
lemma inHand_ne_new (h : p.publisher.Matches) {id : ℕ}
    (hnew : ∀ r ∈ p.publisher.events.rows, r.id ≠ id) (k : String) :
    p.publisher.inHand className about ≠ some (id, k) := by
  intro hhand
  obtain ⟨e, hcurrent, hid, -⟩ := PublisherState.inHand_eq_some hhand
  obtain ⟨r, hr, hsame⟩ := h.row e hcurrent
  exact hnew r hr (hsame.id.trans hid)

/-- The handler of another class has no message for the class. -/
lemma inHand_of_ne (h : p.publisher.Matches) {payload : DomainEvent}
    (hdelivers : p.delivers className' = some payload) (hne : className' ≠ className) :
    p.publisher.inHand className about = none := by
  obtain ⟨e, hcurrent, hclass, -⟩ := current_of_delivers h hdelivers
  rw [PublisherState.inHand_of_current hcurrent, hclass, if_neg hne]

/-- The handler has the message that the loop delivers to it. -/
lemma inHand_of_delivers (h : p.publisher.Matches) {payload : DomainEvent}
    (hdelivers : p.delivers className = some payload) {k : String}
    (habout : about payload = some k) :
    ∃ id, p.publisher.inHand className about = some (id, k) := by
  obtain ⟨e, hcurrent, hclass, hpayload⟩ := current_of_delivers h hdelivers
  refine ⟨e.id, ?_⟩
  rw [PublisherState.inHand_of_current hcurrent, hclass, if_pos rfl, hpayload, habout]
  rfl

/-- A step of the loop. -/
lemma view_loopStep (h : p.publisher.Matches) {a : EventStep DomainEvent}
    (htakes : PublisherState.Takes p.publisher a p'.publisher) (ha : a.ofLoop = true)
    (hfresh : ∀ k, fresh k → fresh' k)
    (hover : overtaken' → overtaken ∧ ∀ now, a ≠ .published now) :
    Outbox.Step (p.view className about fresh overtaken)
      (p'.view className about fresh' overtaken') := by
  have hkept := fun m k (hout : p.publisher.events.Outstanding className about m k) =>
    h.outstanding_loopStep htakes ha hout
  rcases PublisherState.current_loopStep htakes ha with ⟨now, rfl⟩ | hnone | hsame
  · exact .take hfresh hkept fun hover' => (hover hover').2 now rfl
  · refine .other hfresh hkept (.inl ?_)
    simp [view, PublisherState.inHand, hnone]
  · refine .other hfresh hkept (.inr ⟨?_, fun hover' => (hover hover').1⟩)
    simp [view, PublisherState.inHand, hsame]

/-- The handler of another class returns. -/
lemma view_otherReturns (h : p.publisher.Matches) {now : Instant} {payloads : List DomainEvent}
    (hreturns : PublisherState.Takes p.publisher (.handlerReturns (some now) payloads)
      p'.publisher) {payload : DomainEvent} (hdelivers : p.delivers className' = some payload)
    (hne : className' ≠ className) (hfresh : ∀ k, fresh k → fresh' k)
    (hover : overtaken' → overtaken) :
    Outbox.Step (p.view className about fresh overtaken)
      (p'.view className about fresh' overtaken') := by
  refine .other hfresh ?_ (.inr ⟨PublisherState.inHand_handlerReturns hreturns, hover⟩)
  intro m k hout
  refine h.outstanding_handlerReturns hreturns hout ?_
  rw [inHand_of_ne h hdelivers hne]
  simp

/-- A handler throws. -/
lemma view_throws {handledAt : Option Instant} {stackTrace : String}
    (htakes : PublisherState.Takes p.publisher (.handlerThrows handledAt stackTrace) p'.publisher)
    (hfresh : ∀ k, fresh k → fresh' k) (hover : overtaken' → overtaken) :
    Outbox.Step (p.view className about fresh overtaken)
      (p'.view className about fresh' overtaken') := by
  obtain ⟨hevents, hhand⟩ := PublisherState.inHand_handlerThrows htakes
  refine .other hfresh ?_ (.inr ⟨hhand, hover⟩)
  intro m k hout
  change p'.publisher.events.Outstanding className about m k
  rw [hevents]
  exact hout

end Views

/-! ## The outbox of the site logs -/

/-- The log of a station that is not the uploaded one stays. -/
lemma findSiteLog_upload {w w' : World}
    (hlogs : (w.store.siteLogs.map (·.fourCharacterId)).Nodup) {l : SiteLog}
    (hupload : World.Takes lib w (.upload l) w') {id : String} (hid : id ≠ l.fourCharacterId) :
    w'.store.findSiteLog id = w.store.findSiteLog id := by
  obtain ⟨st, hok, rfl⟩ := hupload
  simp only [Step.run, upload_eq hlogs] at hok
  obtain rfl := Except.ok.inj hok
  have hfilter : ∀ r : SiteLog, (decide (r.fourCharacterId = id) &&
      decide (r.fourCharacterId ≠ l.fourCharacterId)) = decide (r.fourCharacterId = id) := by
    intro r
    by_cases hr : r.fourCharacterId = id
    · simp [hr, hid]
    · simp [hr]
  simp only [World.after, Store.findSiteLog, List.filter_append, List.filter_filter, hfilter]
  simp [hid.symm]

/-- An upload keeps what the handlers did. -/
lemma lastLog_upload {w w' : World} {l : SiteLog} (hupload : World.Takes lib w (.upload l) w') :
    w'.lastLog = w.lastLog ∧ w'.nodesUpdated = w.nodesUpdated := by
  obtain ⟨st, -, rfl⟩ := hupload
  exact ⟨rfl, rfl⟩

/-- Updating the nodes keeps the site logs and what was handled. -/
lemma siteLogs_siteUpdated {w w' : World} {rows : RowOrder} {e : SiteUpdated}
    (htakes : World.Takes lib w (.siteUpdated rows e) w') :
    w'.store.siteLogs = w.store.siteLogs ∧ w'.lastLog = w.lastLog ∧
      w'.nodesUpdated = Function.update w.nodesUpdated e.fourCharacterId true := by
  obtain ⟨st, hok, rfl⟩ := htakes
  obtain ⟨-, hframe⟩ := nodeService_frame hok
  refine ⟨?_, rfl, rfl⟩
  change st.siteLogs = w.store.siteLogs
  rw [hframe]

/-- What the setups of a station follow is read from the logs and from what was handled. -/
lemma SetupsFollow.congr {id : String} (h : p.SetupsFollow id)
    (hlogs : p'.world.store.siteLogs = p.world.store.siteLogs)
    (hlast : p'.world.lastLog = p.world.lastLog) : p'.SetupsFollow id := by
  intro l hl
  rw [hlast]
  refine h l ?_
  rwa [Store.findSiteLog, hlogs] at hl

lemma logsView_upload (hworld : p.Tracked) (h : p.publisher.Matches) {l : SiteLog}
    (ha : p.Orderly (.upload l)) (hstep : Takes lib p (.upload l) p') :
    Outbox.Step p.logsView p'.logsView := by
  obtain ⟨hupload, hpublisher, hover⟩ := takes_upload hworld.siteLogs_nodup hstep
  obtain ⟨s, hs, hclass, hcan⟩ := ha
  have hgrows := grows_foldl_publish p.publisher.subscribers
    [.siteLogReceived ⟨l.fourCharacterId, l.siteLogText⟩] p.publisher.events
  have habout : DomainEvent.receivedStation
      (.siteLogReceived ⟨l.fourCharacterId, l.siteLogText⟩) = some l.fourCharacterId := rfl
  obtain ⟨id, hposted, hnew⟩ := EventRepository.outstanding_publishAll h.coherent.sound hs
    (List.mem_singleton_self _) hcan habout
  refine .write l.fourCharacterId id ?_ ?_ ?_ (inHand_ne_new h hnew) ?_ ?_
  · intro id' hid' hfresh l' hl'
    rw [findSiteLog_upload hworld.siteLogs_nodup hupload hid'] at hl'
    rw [(lastLog_upload hupload).1]
    exact hfresh l' hl'
  · intro m k hout
    change p'.publisher.events.Outstanding _ _ m k
    rw [hpublisher]
    exact EventRepository.Outstanding.grows hout hgrows
  · change p'.publisher.events.Outstanding _ _ id _
    rw [hpublisher, ← hclass]
    exact hposted
  · change p'.publisher.inHand _ _ = _
    rw [hpublisher]
    rfl
  · intro hover'
    refine (hover.mp hover').imp_right fun hcurrent m k hhand => ?_
    obtain ⟨e, he, -, -, habout⟩ := PublisherState.inHand_eq_some hhand
    rw [he] at hcurrent
    exact Option.some.inj (habout.symm.trans hcurrent)

/-- What the commit of `CorsSiteService.handle` leaves. -/
lemma siteLogReceived_spec (hworld : p.Tracked) {load : LoadOrder} {rows : RowOrder}
    {seen : SiteLog} {now : Instant}
    (hstep : Takes lib p (.siteLogReceived load rows seen now) p') :
    ∃ e, p.delivers corsSiteSubscriber.className = some (.siteLogReceived e) ∧
      p.MaySee e.fourCharacterId seen ∧ seen.fourCharacterId = e.fourCharacterId ∧
      p'.world.store.siteLogs = p.world.store.siteLogs ∧
      p'.world.lastLog =
        Function.update p.world.lastLog e.fourCharacterId (some (load.load seen)) ∧
      p'.world.nodesUpdated = Function.update p.world.nodesUpdated e.fourCharacterId false ∧
      p'.overtaken = p.overtaken ∧ PublisherState.Takes p.publisher
        (.handlerReturns (some now) [.siteUpdated ⟨e.fourCharacterId⟩]) p'.publisher := by
  obtain ⟨e, w, hdelivers, hsee, htakes, hw, hover, hreturns⟩ :=
    takes_siteLogReceived hworld.world hstep
  have hid := (hworld.maySee hsee).1
  have hview : TracksNodes (p.world.withLogs [seen]) :=
    hworld.world.withLogs (List.nodup_singleton _)
  obtain ⟨-, -, hlast, hupdated⟩ := World.siteLogReceived_inv hview htakes
  have hread : (p.world.withLogs [seen]).readLog load e.fourCharacterId = some (load.load seen) :=
    hid ▸ readLog_withLogs load
  rw [hread] at hlast
  refine ⟨e, hdelivers, hsee, hid, ?_, ?_, ?_, hover, hreturns⟩
  · rw [hw]
    rfl
  · rw [hw]
    exact hlast
  · rw [hw]
    exact hupdated

lemma logsView_siteLogReceived (hworld : p.Tracked) (h : p.publisher.Matches) {load : LoadOrder}
    {rows : RowOrder} {seen : SiteLog} {now : Instant}
    (hstep : Takes lib p (.siteLogReceived load rows seen now) p') :
    Outbox.Step p.logsView p'.logsView := by
  obtain ⟨e, hdelivers, hsee, -, hlogs, hlast, -, hover, hreturns⟩ :=
    siteLogReceived_spec hworld hstep
  have habout : DomainEvent.receivedStation (.siteLogReceived e) = some e.fourCharacterId := rfl
  obtain ⟨id, hhand⟩ := inHand_of_delivers h hdelivers habout
  have hfind : p'.world.store.findSiteLog = p.world.store.findSiteLog := by
    funext id
    rw [Store.findSiteLog, Store.findSiteLog, hlogs]
  refine .commit id e.fourCharacterId hhand ?_ ?_ ?_ ?_ ?_
  · intro id' hid' hfresh l hl
    rw [hfind] at hl
    rw [hlast, Function.update_of_ne hid']
    exact hfresh l hl
  · -- the handler worked on the stored log
    intro hnot l hl
    rw [hfind] at hl
    rw [hlast, Function.update_self]
    refine ⟨load.load seen, rfl, ?_⟩
    rcases hsee with hstored | ⟨hovertaken, -⟩
    · simp only [Store.findSiteLog, hstored] at hl
      obtain rfl := Option.some.inj (Except.ok.inj hl)
      exact load.load_iterates seen
    · exact absurd hovertaken hnot
  · intro m k hne hout
    refine h.outstanding_handlerReturns hreturns hout ?_
    intro heq
    exact hne (Option.some.inj (heq.symm.trans hhand))
  · exact PublisherState.inHand_handlerReturns hreturns
  · exact fun hover' => hover.symm.trans hover'

/-- **Every orderly step is a step of the outbox of the site logs.** -/
theorem logsView_step (hworld : p.Tracked) (h : p.publisher.Matches) (ha : p.Orderly a)
    (hstep : Takes lib p a p') : Outbox.Step p.logsView p'.logsView := by
  have hcongr : p'.world = p.world → ∀ id, p.SetupsFollow id → p'.SetupsFollow id :=
    fun hw id hfollow => hfollow.congr (by rw [hw]) (by rw [hw])
  cases a with
  | event a =>
      obtain ⟨hloop, htakes, hw, hover⟩ := takes_event hstep
      exact view_loopStep h htakes hloop (hcongr hw) hover
  | upload l => exact logsView_upload hworld h ha hstep
  | siteLogReceived load rows seen now => exact logsView_siteLogReceived hworld h hstep
  | siteUpdated rows now =>
      obtain ⟨e, hdelivers, htakes, hover, hreturns⟩ := takes_siteUpdated hstep
      obtain ⟨hlogs, hlast, -⟩ := siteLogs_siteUpdated htakes
      exact view_otherReturns h hreturns hdelivers (by decide)
        (fun id hfollow => hfollow.congr hlogs hlast) (fun hover' => hover.symm.trans hover')
  | notified now =>
      obtain ⟨⟨payload, hdelivers⟩, hw, hover, hreturns⟩ := takes_notified hstep
      exact view_otherReturns h hreturns hdelivers (by decide) (hcongr hw)
        (fun hover' => hover.symm.trans hover')
  | throws handledAt stackTrace =>
      obtain ⟨htakes, hw, hover⟩ := takes_throws hstep
      exact view_throws htakes (hcongr hw) (fun hover' => hover.symm.trans hover')

/-! ## The outbox of the setups -/

/-- What the nodes of a station follow is what was handled. -/
lemma NodesFollow.congr {id : String} (h : p.NodesFollow id)
    (hlast : p'.world.lastLog id = p.world.lastLog id)
    (hupdated : p'.world.nodesUpdated id = p.world.nodesUpdated id) : p'.NodesFollow id := by
  unfold NodesFollow
  rw [hlast, hupdated]
  exact h

lemma nodesView_siteLogReceived (hworld : p.Tracked) (h : p.publisher.Matches) {load : LoadOrder}
    {rows : RowOrder} {seen : SiteLog} {now : Instant}
    (ha : p.Orderly (.siteLogReceived load rows seen now))
    (hstep : Takes lib p (.siteLogReceived load rows seen now) p') :
    Outbox.Step p.nodesView p'.nodesView := by
  obtain ⟨e, hdelivers, -, hid, -, hlast, hupdated, -, hreturns⟩ :=
    siteLogReceived_spec hworld hstep
  have hhand : p.publisher.inHand nodeSubscriber.className DomainEvent.updatedStation = none :=
    inHand_of_ne h hdelivers (by decide)
  obtain ⟨s, hs, hclass, hcan⟩ := ha
  rw [hid] at hcan
  have habout : DomainEvent.updatedStation (.siteUpdated ⟨e.fourCharacterId⟩) =
      some e.fourCharacterId := rfl
  obtain ⟨q, t, subscribers, es, hloop, hst⟩ := EventStep.run_handlerReturns hreturns
  have hretries := (h.coherent.current q (by rw [hloop]; rfl)).1
  obtain ⟨id, hposted, -⟩ := EventRepository.outstanding_publishAll
    (sound_handledRow h.coherent.sound hretries (some now)) hs (List.mem_singleton_self _) hcan
    habout
  refine .write e.fourCharacterId id ?_ ?_ ?_ ?_ ?_ (fun hover => hover.elim)
  · intro id' hid' hfollow
    exact hfollow.congr (by rw [hlast, Function.update_of_ne hid'])
      (by rw [hupdated, Function.update_of_ne hid'])
  · intro m k hout
    exact h.outstanding_handlerReturns hreturns hout (by simp [hhand])
  · change p'.publisher.events.Outstanding _ _ id _
    rw [hst, ← hclass]
    exact hposted
  · intro k
    change p.publisher.inHand _ _ ≠ _
    simp [hhand]
  · exact PublisherState.inHand_handlerReturns hreturns

lemma nodesView_siteUpdated (h : p.publisher.Matches) {rows : RowOrder} {now : Instant}
    (hstep : Takes lib p (.siteUpdated rows now) p') :
    Outbox.Step p.nodesView p'.nodesView := by
  obtain ⟨e, hdelivers, htakes, -, hreturns⟩ := takes_siteUpdated hstep
  obtain ⟨-, hlast, hupdated⟩ := siteLogs_siteUpdated htakes
  have habout : DomainEvent.updatedStation (.siteUpdated e) = some e.fourCharacterId := rfl
  obtain ⟨id, hhand⟩ := inHand_of_delivers h hdelivers habout
  refine .commit id e.fourCharacterId hhand ?_ ?_ ?_ ?_ fun hover => hover
  · intro id' hid' hfollow
    exact hfollow.congr (by rw [hlast]) (by rw [hupdated, Function.update_of_ne hid'])
  · intro _
    right
    rw [hupdated, Function.update_self]
  · intro m k hne hout
    refine h.outstanding_handlerReturns hreturns hout ?_
    intro heq
    exact hne (Option.some.inj (heq.symm.trans hhand))
  · exact PublisherState.inHand_handlerReturns hreturns

/-- **Every orderly step is a step of the outbox of the setups.** -/
theorem nodesView_step (hworld : p.Tracked) (h : p.publisher.Matches) (ha : p.Orderly a)
    (hstep : Takes lib p a p') : Outbox.Step p.nodesView p'.nodesView := by
  have hcongr : p'.world = p.world → ∀ id, p.NodesFollow id → p'.NodesFollow id :=
    fun hw id hfollow => hfollow.congr (by rw [hw]) (by rw [hw])
  cases a with
  | event a =>
      obtain ⟨hloop, htakes, hw, -⟩ := takes_event hstep
      exact view_loopStep h htakes hloop (hcongr hw) fun hover => hover.elim
  | upload l =>
      obtain ⟨hupload, hpublisher, -⟩ := takes_upload hworld.siteLogs_nodup hstep
      obtain ⟨hlast, hupdated⟩ := lastLog_upload hupload
      refine .other (fun id hfollow => hfollow.congr (by rw [hlast]) (by rw [hupdated])) ?_
        (.inr ⟨?_, fun hover => hover⟩)
      · intro m k hout
        change p'.publisher.events.Outstanding _ _ m k
        rw [hpublisher]
        exact EventRepository.Outstanding.grows hout (grows_foldl_publish _ _ _)
      · change p'.publisher.inHand _ _ = _
        rw [hpublisher]
        rfl
  | siteLogReceived load rows seen now => exact nodesView_siteLogReceived hworld h ha hstep
  | siteUpdated rows now => exact nodesView_siteUpdated h hstep
  | notified now =>
      obtain ⟨⟨payload, hdelivers⟩, hw, -, hreturns⟩ := takes_notified hstep
      exact view_otherReturns h hreturns hdelivers (by decide) (hcongr hw) fun hover => hover
  | throws handledAt stackTrace =>
      obtain ⟨htakes, hw, -⟩ := takes_throws hstep
      exact view_throws htakes (hcongr hw) fun hover => hover

/-! ## Runs -/

/-- The tables are in order, and the loop's event and its row say the same. -/
structure Sound (p : Pipeline) : Prop where
  tracked : p.Tracked
  publisher : p.publisher.Matches

lemma sound_init : Sound Pipeline.init := ⟨tracked_init, PublisherState.matches_init⟩

lemma Sound.step (h : p.Sound) (ha : p.Orderly a) (hstep : Takes lib p a p') : p'.Sound :=
  ⟨h.tracked.step hstep, matches_step h.tracked h.publisher ha hstep⟩

/-- A run whose steps are all orderly. -/
def OrderlyRun (lib : ListUtils) (p : Pipeline) (as : List PipelineStep) (p' : Pipeline) : Prop :=
  Run (Takes lib) p as p' ∧ ∀ q a q', Passes (Takes lib) p as q a q' → q.Orderly a

lemma OrderlyRun.sound {as : List PipelineStep} (h : OrderlyRun lib p as p') (hp : p.Sound) :
    p'.Sound :=
  h.1.invariant_of_passes (fun _ _ _ ha hq hstep => hq.step ha hstep) h.2 hp

/-- Both outboxes stay sound. -/
lemma OrderlyRun.views {as : List PipelineStep} (h : OrderlyRun lib Pipeline.init as p) :
    p.logsView.Sound ∧ p.nodesView.Sound := by
  constructor
  · refine Outbox.sound_of_run logsView (fun _ _ _ ha hq hstep => Sound.step hq ha hstep)
      (fun _ _ _ ha hq hstep => logsView_step hq.tracked hq.publisher ha hstep) h.1 h.2 sound_init
      ⟨?_, ?_⟩
    · intro id hstale
      refine absurd ?_ hstale
      intro l hl
      simp [Pipeline.init, World.init, Store.empty, Store.findSiteLog] at hl
    · intro m k hhand
      simp [logsView, view, Pipeline.init, PublisherState.inHand, AsynchronousEventPublisher.init,
        EventLoop.current] at hhand
  · refine Outbox.sound_of_run nodesView
      (fun _ _ _ ha hq hstep => Sound.step hq ha hstep)
      (fun _ _ _ ha hq hstep => nodesView_step hq.tracked hq.publisher ha hstep) h.1 h.2 sound_init
      ⟨?_, ?_⟩
    · intro id hstale
      exact absurd (.inl rfl) hstale
    · intro m k _ hover
      exact hover.elim

end Pipeline

end Geodesy
