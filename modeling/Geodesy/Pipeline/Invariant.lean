import Geodesy.Nodes.History
import Geodesy.Pipeline.Records

/-!
# What a step of the pipeline does

One inversion lemma for each kind of step, and from them the two invariants of all runs: the tables
track the logs that were handled (`Pipeline.Tracked`), and the loop's event matches its row
(`PublisherState.Matches`) as long as no handler fails after it called `handled`.

`readLog` and `findSiteLog` read the stored logs, and no table but `SITE_LOG` is read through them,
so a handler that works on the log `seen` takes the step of the world that stores nothing else.
-/

namespace Geodesy

open TransitionSystem AsynchronousEventPublisher

/-! ## Other site logs -/

section WithLogs

variable {w : World} {siteLogs : List SiteLog}

lemma TracksNodes.withLogs (h : TracksNodes w)
    (hlogs : (siteLogs.map (·.fourCharacterId)).Nodup) : TracksNodes (w.withLogs siteLogs) where
  tables := h.tables.congr le_rfl rfl rfl rfl rfl hlogs
  owned := h.owned
  unhandled := h.unhandled
  handled := by
    intro id k hk
    obtain ⟨l, hl, hacc, hreal⟩ := h.handled id k hk
    exact ⟨l, hl, hacc, hreal.mono (Extends.of_eq le_rfl rfl rfl) rfl⟩
  nodes := h.nodes.congr le_rfl rfl rfl rfl

lemma readLog_withLogs (load : LoadOrder) {seen : SiteLog} :
    (w.withLogs [seen]).readLog load seen.fourCharacterId = some (load.load seen) := by
  simp [World.readLog, World.withLogs, Store.findSiteLog]

end WithLogs

/-! ## What the services publish -/

lemma Store.raised_self (st : Store) : st.raised st = [] := by
  simp [Store.raised]

lemma Store.raised_append {st st' : Store} {events : List DomainEvent}
    (h : st'.published = st.published ++ events) : st.raised st' = events := by
  simp [Store.raised, h]

/-- The world that a handled log leads to. -/
lemma World.siteLogReceived_inv {lib : ListUtils} {w w' : World} {load : LoadOrder}
    {rows : RowOrder} {e : SiteLogReceived} (h : TracksNodes w)
    (hstep : World.Takes lib w (.siteLogReceived load rows e) w') :
    w'.store.siteLogs = w.store.siteLogs ∧
      w'.store.published = w.store.published ++ [.siteUpdated ⟨e.fourCharacterId⟩] ∧
      w'.lastLog = Function.update w.lastLog e.fourCharacterId (w.readLog load e.fourCharacterId) ∧
      w'.nodesUpdated = Function.update w.nodesUpdated e.fourCharacterId false := by
  obtain ⟨st, hok, rfl⟩ := hstep
  obtain ⟨l, site, saved, N, hby⟩ := handle_inv h.tables hok
  refine ⟨?_, ?_, rfl, rfl⟩
  · change st.siteLogs = w.store.siteLogs
    rw [hby.result, placeAll_frame, hby.siteSaved.frame]
  · change st.published = _
    rw [hby.result]

namespace Pipeline

variable {lib : ListUtils} {p p' : Pipeline}

/-! ## Inversion -/

lemma delivers_eq_some {className : String} {payload : DomainEvent}
    (h : p.delivers className = some payload) :
    ∃ e s subscribers es, p.publisher.loop = .delivering e (s :: subscribers) es ∧
      s.className = className ∧ e.payload = payload := by
  unfold delivers at h
  split at h
  · rename_i e s subscribers es hloop
    split at h
    · rename_i hclass
      exact ⟨e, s, subscribers, es, hloop, hclass, Option.some.inj h⟩
    · cases h
  · cases h

/-- What is known of the event when a handler of the class returns. -/
lemma current_of_delivers {className : String} {payload : DomainEvent}
    (h : p.publisher.Matches) (hdelivers : p.delivers className = some payload) :
    ∃ e, p.publisher.loop.current = some e ∧ e.subscriber = className ∧ e.payload = payload := by
  obtain ⟨e, s, subscribers, es, hloop, hclass, hpayload⟩ := delivers_eq_some hdelivers
  have haddressed := h.addressed e _ es hloop s List.mem_cons_self
  exact ⟨e, by rw [hloop]; rfl, haddressed.symm.trans hclass, hpayload⟩

lemma takes_event {a : EventStep DomainEvent} (h : Takes lib p (.event a) p') :
    a.ofLoop = true ∧ PublisherState.Takes p.publisher a p'.publisher ∧ p'.world = p.world ∧
      (p'.overtaken = true → p.overtaken = true ∧ ∀ now, a ≠ .published now) := by
  unfold Takes run at h
  simp only at h
  split at h
  · rename_i hloop
    obtain ⟨publisher, hrun, rfl⟩ := Option.map_eq_some_iff.mp h
    refine ⟨hloop, hrun, rfl, ?_⟩
    intro hover
    cases a with
    | published now => simp at hover
    | _ => exact ⟨hover, by simp⟩
  · cases h

/-- An upload stores the log and publishes its receipt. -/
lemma takes_upload (hlogs : (p.world.store.siteLogs.map (·.fourCharacterId)).Nodup)
    {siteLog : SiteLog} (h : Takes lib p (.upload siteLog) p') :
    World.Takes lib p.world (.upload siteLog) p'.world ∧
      p'.publisher = { p.publisher with
        events := publishAll p.publisher.subscribers
          [.siteLogReceived ⟨siteLog.fourCharacterId, siteLog.siteLogText⟩] p.publisher.events } ∧
      (p'.overtaken = true ↔ p.overtaken = true ∨
        p.publisher.loop.current.bind (·.payload.receivedStation)
          = some siteLog.fourCharacterId) := by
  obtain ⟨st, hok⟩ : ∃ st, CorsSiteLogService.upload siteLog p.world.store = .ok st :=
    ⟨_, upload_eq hlogs siteLog⟩
  have hraised : p.world.store.raised st =
      [.siteLogReceived ⟨siteLog.fourCharacterId, siteLog.siteLogText⟩] := by
    have heq := hok
    rw [upload_eq hlogs] at heq
    obtain rfl := Except.ok.inj heq
    exact Store.raised_append rfl
  unfold Takes run at h
  simp only [hok, hraised] at h
  obtain rfl := Option.some.inj h
  exact ⟨⟨st, hok, rfl⟩, rfl, by simp⟩

/-- A handler's commit. -/
lemma commit_eq_some {w : World} {now : Instant} (h : p.commit w now = some p') :
    p'.world = w ∧ p'.overtaken = p.overtaken ∧
      PublisherState.Takes p.publisher
        (.handlerReturns (some now) (p.world.store.raised w.store)) p'.publisher := by
  obtain ⟨publisher, hrun, rfl⟩ := Option.map_eq_some_iff.mp h
  exact ⟨rfl, rfl, hrun⟩

/-- The handler of a received log takes the step of the world that stores the log it read. -/
lemma takes_siteLogReceived (hworld : TracksNodes p.world) {load : LoadOrder} {rows : RowOrder}
    {seen : SiteLog} {now : Instant}
    (h : Takes lib p (.siteLogReceived load rows seen now) p') :
    ∃ e w, p.delivers corsSiteSubscriber.className = some (.siteLogReceived e) ∧
      p.MaySee e.fourCharacterId seen ∧
      World.Takes lib (p.world.withLogs [seen]) (.siteLogReceived load rows e) w ∧
      p'.world = w.withLogs p.world.store.siteLogs ∧ p'.overtaken = p.overtaken ∧
      PublisherState.Takes p.publisher
        (.handlerReturns (some now) [.siteUpdated ⟨e.fourCharacterId⟩]) p'.publisher := by
  unfold Takes run at h
  simp only at h
  split at h
  · rename_i e hdelivers
    split at h
    · rename_i hsee
      split at h
      · rename_i st hok
        obtain ⟨hw, hover, hpublisher⟩ := commit_eq_some h
        have hstep : World.Takes lib (p.world.withLogs [seen]) (.siteLogReceived load rows e)
            ((p.world.withLogs [seen]).after (.siteLogReceived load rows e) st) := ⟨st, hok, rfl⟩
        have hview : TracksNodes (p.world.withLogs [seen]) :=
          hworld.withLogs (List.nodup_singleton _)
        have hpublished := (World.siteLogReceived_inv hview hstep).2.1
        have hraised : p.world.store.raised (((p.world.withLogs [seen]).after
            (.siteLogReceived load rows e) st).withLogs p.world.store.siteLogs).store =
            [.siteUpdated ⟨e.fourCharacterId⟩] := Store.raised_append hpublished
        rw [hraised] at hpublisher
        exact ⟨e, _, hdelivers, hsee, hstep, hw, hover, hpublisher⟩
      · cases h
    · cases h
  · cases h

lemma takes_siteUpdated {rows : RowOrder} {now : Instant}
    (h : Takes lib p (.siteUpdated rows now) p') :
    ∃ e, p.delivers nodeSubscriber.className = some (.siteUpdated e) ∧
      World.Takes lib p.world (.siteUpdated rows e) p'.world ∧ p'.overtaken = p.overtaken ∧
      PublisherState.Takes p.publisher (.handlerReturns (some now) []) p'.publisher := by
  unfold Takes run at h
  simp only at h
  split at h
  · rename_i e hdelivers
    split at h
    · rename_i st hok
      obtain ⟨hw, hover, hpublisher⟩ := commit_eq_some h
      obtain ⟨-, hframe⟩ := nodeService_frame hok
      have hraised : p.world.store.raised st = [] :=
        Store.raised_append (by rw [hframe, List.append_nil])
      change PublisherState.Takes p.publisher
        (.handlerReturns (some now) (p.world.store.raised st)) p'.publisher at hpublisher
      rw [hraised] at hpublisher
      exact ⟨e, hdelivers, ⟨st, hok, hw⟩, hover, hpublisher⟩
    · cases h
  · cases h

lemma takes_notified {now : Instant} (h : Takes lib p (.notified now) p') :
    (∃ payload, p.delivers siteLogReceivedNotificationSubscriber.className = some payload) ∧
      p'.world = p.world ∧ p'.overtaken = p.overtaken ∧
      PublisherState.Takes p.publisher (.handlerReturns (some now) []) p'.publisher := by
  unfold Takes run at h
  simp only at h
  split at h
  · rename_i payload hdelivers
    obtain ⟨hw, hover, hpublisher⟩ := commit_eq_some h
    rw [Store.raised_self] at hpublisher
    exact ⟨⟨payload, hdelivers⟩, hw, hover, hpublisher⟩
  · cases h

lemma takes_throws {handledAt : Option Instant} {stackTrace : String}
    (h : Takes lib p (.throws handledAt stackTrace) p') :
    PublisherState.Takes p.publisher (.handlerThrows handledAt stackTrace) p'.publisher ∧
      p'.world = p.world ∧ p'.overtaken = p.overtaken := by
  obtain ⟨publisher, hrun, rfl⟩ := Option.map_eq_some_iff.mp h
  exact ⟨hrun, rfl, rfl⟩

/-! ## The tables -/

/-- The tables track the logs that were handled, and the stored logs are as they read back. -/
structure Tracked (p : Pipeline) : Prop where
  world : TracksNodes p.world
  stored : ∀ l ∈ p.world.store.siteLogs, l.reload = l

lemma tracked_init : Tracked Pipeline.init where
  world := ⟨tracks_init, nodeTable_empty⟩
  stored := by simp [Pipeline.init, World.init, Store.empty]

lemma Tracked.siteLogs_nodup (h : p.Tracked) :
    (p.world.store.siteLogs.map (·.fourCharacterId)).Nodup := h.world.tables.siteLogs

/-- The log that a handler may see is one of the station, as it reads back. -/
lemma Tracked.maySee (h : p.Tracked) {id : String} {seen : SiteLog} (hsee : p.MaySee id seen) :
    seen.fourCharacterId = id ∧ seen.reload = seen := by
  rcases hsee with hstored | ⟨-, hid, hreload⟩
  · have hmem : seen ∈ p.world.store.siteLogs.filter (·.fourCharacterId = id) := by
      rw [hstored]
      exact List.mem_singleton_self seen
    obtain ⟨hmem, hid⟩ := List.mem_filter.mp hmem
    exact ⟨of_decide_eq_true hid, h.stored seen hmem⟩
  · exact ⟨hid, hreload⟩

@[simp] lemma reload_reload (l : SiteLog) : l.reload.reload = l.reload := by
  simp [SiteLog.reload]

/-- **Every step keeps the tables in order**, also where a handler read another log than the stored
one. -/
theorem Tracked.step (h : p.Tracked) {a : PipelineStep} (hstep : Takes lib p a p') :
    p'.Tracked := by
  cases a with
  | event a =>
      obtain ⟨-, -, hworld, -⟩ := takes_event hstep
      exact ⟨hworld ▸ h.world, hworld ▸ h.stored⟩
  | upload siteLog =>
      obtain ⟨hupload, -, -⟩ := takes_upload h.siteLogs_nodup hstep
      refine ⟨tracksNodes_step h.world hupload, ?_⟩
      obtain ⟨st, hok, hworld⟩ := hupload
      simp only [Step.run, upload_eq h.siteLogs_nodup] at hok
      obtain rfl := Except.ok.inj hok
      rw [hworld]
      intro l hl
      rcases List.mem_append.mp hl with hl | hl
      · exact h.stored l (List.mem_of_mem_filter hl)
      · rw [List.mem_singleton.mp hl, reload_reload]
  | siteLogReceived load rows seen now =>
      obtain ⟨e, w, -, -, htakes, hworld, -, -⟩ := takes_siteLogReceived h.world hstep
      have hview : TracksNodes (p.world.withLogs [seen]) :=
        h.world.withLogs (List.nodup_singleton _)
      refine ⟨?_, ?_⟩
      · rw [hworld]
        exact (tracksNodes_step hview htakes).withLogs h.siteLogs_nodup
      · rw [hworld]
        exact h.stored
  | siteUpdated rows now =>
      obtain ⟨e, -, htakes, -, -⟩ := takes_siteUpdated hstep
      refine ⟨tracksNodes_step h.world htakes, ?_⟩
      obtain ⟨st, hok, hworld⟩ := htakes
      obtain ⟨-, hframe⟩ := nodeService_frame hok
      rw [hworld, show (p.world.after (.siteUpdated rows e) st).store = st from rfl, hframe]
      exact h.stored
  | notified now =>
      obtain ⟨-, hworld, -, -⟩ := takes_notified hstep
      exact ⟨hworld ▸ h.world, hworld ▸ h.stored⟩
  | throws handledAt stackTrace =>
      obtain ⟨-, hworld, -⟩ := takes_throws hstep
      exact ⟨hworld ▸ h.world, hworld ▸ h.stored⟩

end Pipeline

end Geodesy
