import Geodesy.Event.Records
import Geodesy.Pipeline.Archive

/-!
# When handlers can fail by themselves

What the loop delivers is known to the tables: a log of the station is stored, or the site is there
(`DomainEvent.Known`).  So no query of a handler comes back empty, every key leads to a row, and no
query for one row finds two.  The one thing left that a handler can fail on, apart from the database
and the process, is a log with an item that has no place (`SiteLog.Accepted`).
-/

namespace Geodesy

open TransitionSystem AsynchronousEventPublisher

/-! ## What the records say -/

namespace PublisherState

variable {κ : Type*} {P Q : κ → Prop} {st st' : PublisherState κ}

/-- The payload of every record satisfies the predicate, and that of the event being delivered. -/
structure Carries (P : κ → Prop) (st : PublisherState κ) : Prop where
  onRecord : st.OnRecord
  records : ∀ r ∈ st.events.records, P r.payload

lemma Carries.mono (h : st.Carries P) (hPQ : ∀ payload, P payload → Q payload) : st.Carries Q :=
  ⟨h.onRecord, fun r hr => hPQ _ (h.records r hr)⟩

lemma Carries.current (h : st.Carries P) {e : Event κ} (he : st.loop.current = some e) :
    P e.payload := h.records e.record (h.onRecord e he)

/-- More records. -/
lemma Carries.append (h : st.Carries P) {new : List (Record κ)} {published : List (κ × String)}
    (honRecord : st'.OnRecord) (hrecords : st'.events.records = st.events.records ++ new)
    (hfor : new.map Record.address = published) (hpublished : ∀ c ∈ published, P c.1) :
    st'.Carries P := by
  refine ⟨honRecord, ?_⟩
  intro r hr
  rw [hrecords] at hr
  rcases List.mem_append.mp hr with hr | hr
  · exact h.records r hr
  · exact hpublished r.address (hfor ▸ List.mem_map_of_mem hr)

/-- A request publishes events. -/
lemma Carries.publishAll (h : st.Carries P) (subscribers : List (EventSubscriber κ))
    {payloads : List κ} (hpayloads : ∀ payload ∈ payloads, P payload) :
    Carries P { st with
      events := AsynchronousEventPublisher.publishAll subscribers payloads st.events } := by
  obtain ⟨new, hnew, hfor⟩ := (saves_publishAll subscribers payloads st.events).exists_records
  refine h.append (fun e he => ?_) hnew hfor ?_
  · rw [hnew]
    exact List.mem_append_left _ (h.onRecord e he)
  · intro c hc
    obtain ⟨payload, hpayload, haddressed⟩ := List.mem_flatMap.mp hc
    obtain ⟨s, -, rfl⟩ := List.mem_map.mp haddressed
    exact hpayloads payload hpayload

variable [DecidableEq κ] {a : EventStep κ}

/-- **Nothing is delivered but what was published.** -/
lemma Carries.step (h : st.Carries P) (hcoherent : st.Coherent) (hstep : Takes st a st')
    (hraises : ∀ c ∈ a.raises st, P c.1) : st'.Carries P := by
  obtain ⟨honRecord, new, hnew, hfor⟩ := records_step h.onRecord hcoherent hstep
  exact h.append honRecord hnew hfor hraises

end PublisherState

/-! ## What the tables know of them -/

/-- The tables have what a handler of the event asks for. -/
def DomainEvent.Known (st : Store) : DomainEvent → Prop
  | siteLogReceived e => ∃ l ∈ st.siteLogs, l.fourCharacterId = e.fourCharacterId
  | siteUpdated e => ∃ c ∈ st.corsSites, c.fourCharacterId = e.fourCharacterId

/-- A site that is known stays known, and so does a log that is only replaced. -/
lemma DomainEvent.Known.mono {st st' : Store} (hkept : st.Archives st')
    (hlogs : ∀ l ∈ st.siteLogs, ∃ l' ∈ st'.siteLogs, l'.fourCharacterId = l.fourCharacterId) :
    ∀ payload : DomainEvent, payload.Known st → payload.Known st'
  | siteLogReceived e, ⟨l, hl, hid⟩ => by
      obtain ⟨l', hl', hid'⟩ := hlogs l hl
      exact ⟨l', hl', hid'.trans hid⟩
  | siteUpdated e, ⟨c, hc, hid⟩ => by
      obtain ⟨c', hc', hcolumns, -⟩ := hkept.corsSites c hc
      exact ⟨c', hc', (congrArg Prod.snd hcolumns).trans hid⟩

namespace Pipeline

variable {lib : ListUtils} {p p' : Pipeline}

/-- The tables are in order, the loop agrees with the records, and the tables know what the records
are about. -/
structure Informed (p : Pipeline) : Prop extends Tracked p where
  coherent : p.publisher.Coherent
  known : p.publisher.Carries (·.Known p.world.store)

lemma informed_init : Pipeline.init.Informed where
  toTracked := tracked_init
  coherent := PublisherState.coherent_init
  known := ⟨PublisherState.onRecord_init, by
    simp [Pipeline.init, AsynchronousEventPublisher.init, EventRepository.records]⟩

/-- A log that is stored stays, or is replaced by another of its station. -/
lemma siteLogs_takes {a : PipelineStep} (h : p.Tracked) (hstep : Takes lib p a p') :
    ∀ l ∈ p.world.store.siteLogs, ∃ l' ∈ p'.world.store.siteLogs,
      l'.fourCharacterId = l.fourCharacterId := by
  have hsame : ∀ {w : World}, w.store.siteLogs = p.world.store.siteLogs →
      ∀ l ∈ p.world.store.siteLogs, ∃ l' ∈ w.store.siteLogs,
        l'.fourCharacterId = l.fourCharacterId := fun hlogs l hl => ⟨l, hlogs ▸ hl, rfl⟩
  cases a with
  | event a =>
      obtain ⟨-, -, hw, -⟩ := takes_event hstep
      exact hsame (hw ▸ rfl)
  | upload siteLog =>
      obtain ⟨⟨st, hok, hw⟩, -, -⟩ := takes_upload h.siteLogs_nodup hstep
      simp only [Step.run, upload_eq h.siteLogs_nodup] at hok
      obtain rfl := Except.ok.inj hok
      rw [hw]
      intro l hl
      by_cases hid : l.fourCharacterId = siteLog.fourCharacterId
      · exact ⟨siteLog.reload, List.mem_append_right _ (List.mem_singleton_self _),
          by rw [SiteLog.fourCharacterId_reload, hid]⟩
      · exact ⟨l, List.mem_append_left _ (List.mem_filter.mpr ⟨hl, by simpa using hid⟩), rfl⟩
  | siteLogReceived load rows seen now =>
      obtain ⟨e, w, -, -, -, hw, -, -⟩ := takes_siteLogReceived h.world hstep
      exact hsame (hw ▸ rfl)
  | siteUpdated rows now =>
      obtain ⟨e, -, ⟨st, hok, hw⟩, -, -⟩ := takes_siteUpdated hstep
      obtain ⟨-, hframe⟩ := nodeService_frame hok
      refine hsame ?_
      rw [hw]
      change st.siteLogs = _
      rw [hframe]
  | notified now =>
      obtain ⟨-, hw, -, -⟩ := takes_notified hstep
      exact hsame (hw ▸ rfl)
  | throws handledAt stackTrace =>
      obtain ⟨-, hw, -⟩ := takes_throws hstep
      exact hsame (hw ▸ rfl)

/-- The site of a log that was handled is there. -/
lemma exists_site_of_handled {w w' : World} {load : LoadOrder} {rows : RowOrder}
    {e : SiteLogReceived} (h : TracksNodes w)
    (htakes : World.Takes lib w (.siteLogReceived load rows e) w') :
    ∃ c ∈ w'.store.corsSites, c.fourCharacterId = e.fourCharacterId := by
  obtain ⟨st, hok, rfl⟩ := htakes
  obtain ⟨l, site, saved, N, hby⟩ := handle_inv h.tables hok
  have hsite : st.siteId e.fourCharacterId = some site.id := by
    rw [hby.siteId_eq, hby.siteSaved.siteId_eq]
  obtain ⟨c, hfind, -⟩ := Option.map_eq_some_iff.mp hsite
  exact ⟨c, (findCorsSite_eq_some (hby.tables h.tables).sites).mp hfind⟩

/-- **Every step keeps the tables informed.**  An upload stores the log that it announces, and the
handler of a log saves the site that it announces. -/
lemma Informed.step {a : PipelineStep} (h : p.Informed) (hstep : Takes lib p a p') :
    p'.Informed := by
  have hknown := h.known.mono (DomainEvent.Known.mono (archives_takes h.toTracked hstep)
    (siteLogs_takes h.toTracked hstep))
  have htracked := h.toTracked.step hstep
  cases a with
  | event a =>
      obtain ⟨hloop, hpublisher, -, -⟩ := takes_event hstep
      refine ⟨htracked, h.coherent.step hpublisher, hknown.step h.coherent hpublisher ?_⟩
      cases a with
      | publish _ _ => cases hloop
      | handlerReturns _ _ => cases hloop
      | _ => simp [EventStep.raises]
  | upload siteLog =>
      obtain ⟨⟨st, hok, hw⟩, hpublisher, -⟩ := takes_upload h.siteLogs_nodup hstep
      have hstored : ∃ l ∈ p'.world.store.siteLogs,
          l.fourCharacterId = siteLog.fourCharacterId := by
        simp only [Step.run, upload_eq h.siteLogs_nodup] at hok
        obtain rfl := Except.ok.inj hok
        rw [hw]
        exact ⟨siteLog.reload, List.mem_append_right _ (List.mem_singleton_self _), by simp⟩
      refine ⟨htracked, ?_, ?_⟩
      · rw [hpublisher]
        exact h.coherent.grows rfl (grows_foldl_publish _ _ _)
          (sound_foldl_publish h.coherent.sound _ _)
      · rw [hpublisher]
        exact hknown.publishAll _ (List.forall_mem_singleton.mpr hstored)
  | siteLogReceived load rows seen now =>
      obtain ⟨e, w, -, -, htakes, hw, -, hpublisher⟩ := takes_siteLogReceived h.world hstep
      refine ⟨htracked, h.coherent.step hpublisher, hknown.step h.coherent hpublisher ?_⟩
      have hview : TracksNodes (p.world.withLogs [seen]) :=
        h.world.withLogs (List.nodup_singleton _)
      have hsite := exists_site_of_handled hview htakes
      have hsaved : ∃ c ∈ p'.world.store.corsSites, c.fourCharacterId = e.fourCharacterId := by
        rw [hw]
        exact hsite
      intro c hc
      obtain ⟨payload, hpayload, haddressed⟩ := List.mem_flatMap.mp hc
      obtain ⟨s, -, rfl⟩ := List.mem_map.mp haddressed
      obtain rfl := List.mem_singleton.mp hpayload
      exact hsaved
  | siteUpdated rows now =>
      obtain ⟨e, -, -, -, hpublisher⟩ := takes_siteUpdated hstep
      exact ⟨htracked, h.coherent.step hpublisher,
        hknown.step h.coherent hpublisher (by simp [EventStep.raises])⟩
  | notified now =>
      obtain ⟨-, -, -, hpublisher⟩ := takes_notified hstep
      exact ⟨htracked, h.coherent.step hpublisher,
        hknown.step h.coherent hpublisher (by simp [EventStep.raises])⟩
  | throws handledAt stackTrace =>
      obtain ⟨hpublisher, -, -⟩ := takes_throws hstep
      exact ⟨htracked, h.coherent.step hpublisher,
        hknown.step h.coherent hpublisher (by simp [EventStep.raises])⟩

/-- The loop goes on when a handler of the class returns. -/
lemma exists_commit {className : String} {payload : DomainEvent}
    (h : p.delivers className = some payload) (w : World) (now : Instant) :
    ∃ p', p.commit w now = some p' := by
  obtain ⟨e, s, subscribers, es, hloop, -, -⟩ := delivers_eq_some h
  simp [commit, EventStep.run, hloop]

/-- The tables know what is being delivered. -/
lemma Informed.known_of_delivers (h : p.Informed) {className : String} {payload : DomainEvent}
    (hdelivers : p.delivers className = some payload) : payload.Known p.world.store := by
  obtain ⟨e, s, subscribers, es, hloop, -, rfl⟩ := delivers_eq_some hdelivers
  exact h.known.current (by rw [hloop]; rfl)

/-- A log of the station is stored. -/
lemma Informed.exists_maySee (h : p.Informed) {e : SiteLogReceived}
    (hdelivers : p.delivers corsSiteSubscriber.className = some (.siteLogReceived e)) :
    ∃ l, p.MaySee e.fourCharacterId l := by
  obtain ⟨l, hl, hid⟩ := h.known_of_delivers hdelivers
  exact ⟨l, .inl (hid ▸ Rows.filter_eq_singleton_of_nodup h.siteLogs_nodup hl)⟩

/-- The handler of the nodes returns. -/
lemma Informed.exists_siteUpdated (h : p.Informed) {e : SiteUpdated}
    (hdelivers : p.delivers nodeSubscriber.className = some (.siteUpdated e)) (rows : RowOrder)
    (now : Instant) : ∃ p', Takes lib p (.siteUpdated rows now) p' := by
  obtain ⟨c, hc, hid⟩ := h.known_of_delivers hdelivers
  have hfind := (findCorsSite_eq_some h.world.tables.sites).mpr ⟨hc, hid⟩
  have hok : NodeService.handle rows e p.world.store = _ :=
    nodeService_eq h.world.nodes.toNodeReady hfind
  obtain ⟨p', hcommit⟩ := exists_commit hdelivers (p.world.after (.siteUpdated rows e) _) now
  refine ⟨p', ?_⟩
  simp only [Takes, run, hdelivers, hok]
  exact hcommit

/-- The handler of the log that it read returns when every item of the log has a place, and only
then. -/
lemma Informed.exists_siteLogReceived_iff (h : p.Informed) {e : SiteLogReceived}
    (hdelivers : p.delivers corsSiteSubscriber.className = some (.siteLogReceived e))
    {seen : SiteLog} (hsee : p.MaySee e.fourCharacterId seen) (load : LoadOrder) (rows : RowOrder)
    (now : Instant) :
    (∃ p', Takes lib p (.siteLogReceived load rows seen now) p') ↔ seen.Accepted := by
  obtain ⟨hid, -⟩ := h.maySee hsee
  have hview : TracksNodes (p.world.withLogs [seen]) :=
    h.world.withLogs (List.nodup_singleton _)
  have hread : (p.world.withLogs [seen]).store.findSiteLog e.fourCharacterId =
      .ok (some seen) := by
    simp [World.withLogs, Store.findSiteLog, hid]
  rw [← (load.load_iterates seen).accepted_iff]
  constructor
  · rintro ⟨p', hstep⟩
    obtain ⟨e', w, hdelivers', -, ⟨st, hok, -⟩, -⟩ := takes_siteLogReceived h.world hstep
    obtain rfl : e = e' := by simpa [hdelivers] using hdelivers'
    obtain ⟨l, site, saved, N, hby⟩ := handle_inv hview.tables hok
    obtain ⟨log, hlog, rfl⟩ := hby.read
    obtain rfl : seen = log := by simpa [hread] using hlog
    exact hby.accepted
  · intro haccepted
    obtain ⟨st, site, saved, N, hok, -⟩ :=
      handle_of_read lib load rows e hview.tables hread haccepted
    obtain ⟨p', hcommit⟩ := exists_commit hdelivers
      (((p.world.withLogs [seen]).after (.siteLogReceived load rows e) st).withLogs
        p.world.store.siteLogs) now
    refine ⟨p', ?_⟩
    simp only [Takes, run, hdelivers, if_pos hsee, hok]
    exact hcommit

/-- **Handlers go on.**  However the run went so far, `NodeService` can always handle the update of
a site that the loop delivers to it; and there is a log that `CorsSiteService` reads when the loop
delivers the receipt of one, which it can handle exactly when every item of it has a place. -/
theorem handlers_proceed {as : List PipelineStep} (hrun : Run (Takes lib) Pipeline.init as p) :
    (∀ e, p.delivers nodeSubscriber.className = some (.siteUpdated e) →
      ∀ rows now, ∃ p', Takes lib p (.siteUpdated rows now) p') ∧
    ∀ e, p.delivers corsSiteSubscriber.className = some (.siteLogReceived e) →
      (∃ seen, p.MaySee e.fourCharacterId seen) ∧
        ∀ seen, p.MaySee e.fourCharacterId seen → ∀ load rows now,
          (∃ p', Takes lib p (.siteLogReceived load rows seen now) p') ↔ seen.Accepted := by
  have hp : p.Informed := hrun.always (fun _ _ _ hs hstep => hs.step hstep) informed_init
  refine ⟨fun e hdelivers rows now => hp.exists_siteUpdated hdelivers rows now, ?_⟩
  intro e hdelivers
  refine ⟨hp.exists_maySee hdelivers, ?_⟩
  intro seen hsee load rows now
  exact hp.exists_siteLogReceived_iff hdelivers hsee load rows now

/-- The log that was overtaken is being delivered, and handled. -/
theorem handlers_proceed_overtaken :
    ∃ p p', Run (Takes .ofContains) Pipeline.init (overtakenRun.take 7) p ∧
      Takes .ofContains p (.siteLogReceived .asListed .asStored SiteLog.clockRemoved.reload
        (.ofEpochSecond 2)) p' := by
  obtain ⟨p, hrun, hcheck⟩ : ∃ p, Run (Takes .ofContains) Pipeline.init (overtakenRun.take 7) p ∧
      decide (p.delivers corsSiteSubscriber.className = some (.siteLogReceived ⟨"ADE1", ""⟩) ∧
        p.MaySee "ADE1" SiteLog.clockRemoved.reload) = true :=
    exists_run_of_foldlM (by decide +kernel)
  obtain ⟨hdelivers, hsee⟩ := of_decide_eq_true hcheck
  obtain ⟨-, hhandles⟩ := (handlers_proceed hrun).2 _ hdelivers
  obtain ⟨p', hstep⟩ := (hhandles _ hsee .asListed .asStored (.ofEpochSecond 2)).mpr
    (by decide +kernel)
  exact ⟨p, p', hrun, hstep⟩

end Pipeline

end Geodesy
