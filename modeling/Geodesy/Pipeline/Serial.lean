import Geodesy.Pipeline.Frame
import Geodesy.Pipeline.Invariant

/-!
# The pipeline is serial

Uploads race with the handlers, and a handler may commit what it derived from a log that has been
replaced, or that it read half before and half after an upload.  Whatever happens, the tables that
the handlers write are those of a run of the `World`, in which the same handlers commit in the same
order and each log that was read is uploaded right before (`Pipeline.tables_serializable`).  So what
holds of every reachable world of these tables holds of every reachable pipeline.
-/

namespace Geodesy

open TransitionSystem

/-- The two worlds agree, but for the stored logs and the published events. -/
structure World.AgreesWith (w v : World) : Prop where
  store : v.store = w.store.withLogs v.store.siteLogs v.store.published
  lastLog : v.lastLog = w.lastLog
  nodesUpdated : v.nodesUpdated = w.nodesUpdated

/-- The steps of the world that stand for a step of the pipeline. -/
def PipelineStep.Serializes : PipelineStep → List Step → Prop
  | .siteLogReceived load rows seen _, bs =>
    ∃ text, bs = [.upload seen, .siteLogReceived load rows ⟨seen.fourCharacterId, text⟩]
  | .siteUpdated rows _, bs => ∃ id, bs = [.siteUpdated rows ⟨id⟩]
  | _, bs => bs = []

namespace World.AgreesWith

variable {lib : ListUtils} {w v w' : World}

/-- Other logs and other events make no difference. -/
lemma congr (h : w.AgreesWith v) (hstore : w'.store = w.store.withLogs w'.store.siteLogs
      w'.store.published) (hlast : w'.lastLog = w.lastLog)
    (hupdated : w'.nodesUpdated = w.nodesUpdated) : w'.AgreesWith v where
  store := by
    rw [hstore, Store.withLogs_withLogs]
    exact h.store
  lastLog := h.lastLog.trans hlast.symm
  nodesUpdated := h.nodesUpdated.trans hupdated.symm

/-- The log that is read is uploaded, and then handled the same. -/
lemma siteLogReceived (h : w.AgreesWith v) (hv : TracksNodes v) {seen : SiteLog}
    (hreload : seen.reload = seen) {load : LoadOrder} {rows : RowOrder} {e : SiteLogReceived}
    (hid : seen.fourCharacterId = e.fourCharacterId)
    (htakes : World.Takes lib (w.withLogs [seen]) (.siteLogReceived load rows e) w')
    (siteLogs : List SiteLog) :
    ∃ v', Run (World.Takes lib) v [.upload seen, .siteLogReceived load rows e] v' ∧
      (w'.withLogs siteLogs).AgreesWith v' := by
  obtain ⟨st, hok, rfl⟩ := htakes
  -- the upload
  obtain ⟨stored, hupload⟩ : ∃ stored, CorsSiteLogService.upload seen v.store = .ok stored :=
    ⟨_, upload_eq hv.tables.siteLogs seen⟩
  obtain ⟨hread, hframe⟩ := upload_inv hv.tables.siteLogs hupload
  rw [hreload, hid] at hread
  have hstored : stored = (w.withLogs [seen]).store.withLogs stored.siteLogs stored.published := by
    conv_lhs => rw [hframe, h.store]
    rfl
  -- the handler
  have hseen : (w.withLogs [seen]).store.findSiteLog e.fourCharacterId = .ok (some seen) := by
    simp [World.withLogs, Store.findSiteLog, hid]
  have hhandle : CorsSiteService.handle lib load rows e stored = .ok
      (st.withLogs stored.siteLogs (stored.published ++ [.siteUpdated ⟨e.fourCharacterId⟩])) := by
    change CorsSiteService.handle lib load rows e (w.withLogs [seen]).store = .ok st at hok
    have hsame := CorsSiteService.handle_withLogs lib load rows e (hstored ▸ hread.trans hseen.symm)
    rwa [← hstored, hok] at hsame
  have hloaded : (v.after (.upload seen) stored).readLog load e.fourCharacterId =
      (w.withLogs [seen]).readLog load e.fourCharacterId := by
    have hread' : (v.after (.upload seen) stored).store.findSiteLog e.fourCharacterId =
        .ok (some seen) := hread
    rw [World.readLog, World.readLog, hread', hseen]
  have huploaded : World.Takes lib v (.upload seen) (v.after (.upload seen) stored) :=
    ⟨stored, hupload, rfl⟩
  have hhandled : World.Takes lib (v.after (.upload seen) stored) (.siteLogReceived load rows e)
      ((v.after (.upload seen) stored).after (.siteLogReceived load rows e)
        (st.withLogs stored.siteLogs
          (stored.published ++ [.siteUpdated ⟨e.fourCharacterId⟩]))) := ⟨_, hhandle, rfl⟩
  refine ⟨_, (Run.single huploaded).append (.single hhandled), rfl, ?_, ?_⟩
  · change Function.update v.lastLog _ _ = Function.update w.lastLog _ _
    rw [hloaded, h.lastLog]
  · change Function.update v.nodesUpdated _ _ = Function.update w.nodesUpdated _ _
    rw [h.nodesUpdated]

/-- The nodes are updated the same. -/
lemma siteUpdated (h : w.AgreesWith v) (hw : TracksNodes w) {rows : RowOrder} {e : SiteUpdated}
    (htakes : World.Takes lib w (.siteUpdated rows e) w') :
    ∃ v', Run (World.Takes lib) v [.siteUpdated rows e] v' ∧ w'.AgreesWith v' := by
  obtain ⟨st, hok, rfl⟩ := htakes
  have hhandle : NodeService.handle rows e v.store =
      .ok (st.withLogs v.store.siteLogs v.store.published) := by
    change NodeService.handle rows e w.store = .ok st at hok
    have hsame : NodeService.handle rows e
        (w.store.withLogs v.store.siteLogs v.store.published) = _ :=
      nodeService_withLogs hw.nodes.toNodeReady
    rwa [← h.store, hok] at hsame
  refine ⟨_, .single ⟨_, hhandle, rfl⟩, rfl, h.lastLog, ?_⟩
  simp only [World.after]
  rw [h.nodesUpdated]

end World.AgreesWith

namespace Pipeline

variable {lib : ListUtils} {p p' : Pipeline}

/-- Every step of the pipeline is matched by steps of the world. -/
lemma serial_step {a : PipelineStep} {v : World} (hp : p.Tracked) (hv : TracksNodes v)
    (h : p.world.AgreesWith v) (hstep : Takes lib p a p') :
    ∃ bs v', a.Serializes bs ∧ Run (World.Takes lib) v bs v' ∧ p'.world.AgreesWith v' := by
  cases a with
  | event a =>
      obtain ⟨-, -, hw, -⟩ := takes_event hstep
      exact ⟨[], v, rfl, .nil v, hw ▸ h⟩
  | upload l =>
      obtain ⟨⟨st, hok, hw⟩, -, -⟩ := takes_upload hp.siteLogs_nodup hstep
      obtain ⟨-, hframe⟩ := upload_inv hp.siteLogs_nodup hok
      refine ⟨[], v, rfl, .nil v, h.congr ?_ (by rw [hw]; rfl) (by rw [hw]; rfl)⟩
      rw [hw]
      exact hframe
  | siteLogReceived load rows seen now =>
      obtain ⟨e, w, -, hsee, htakes, hw, -, -⟩ := takes_siteLogReceived hp.world hstep
      obtain ⟨hid, hreload⟩ := hp.maySee hsee
      obtain ⟨v', hrun, hagrees⟩ :=
        h.siteLogReceived hv hreload hid htakes p.world.store.siteLogs
      exact ⟨_, v', ⟨e.siteLogText, by rw [hid]⟩, hrun, hw ▸ hagrees⟩
  | siteUpdated rows now =>
      obtain ⟨e, -, htakes, -, -⟩ := takes_siteUpdated hstep
      obtain ⟨v', hrun, hagrees⟩ := h.siteUpdated hp.world htakes
      exact ⟨_, v', ⟨e.fourCharacterId, rfl⟩, hrun, hagrees⟩
  | notified now =>
      obtain ⟨-, hw, -, -⟩ := takes_notified hstep
      exact ⟨[], v, rfl, .nil v, hw ▸ h⟩
  | throws handledAt stackTrace =>
      obtain ⟨-, hw, -⟩ := takes_throws hstep
      exact ⟨[], v, rfl, .nil v, hw ▸ h⟩

/-- The two systems in step. -/
lemma serial_sim (q : Pipeline) (a : PipelineStep) (q' : Pipeline) (v : World)
    (h : q.Tracked ∧ TracksNodes v ∧ q.world.AgreesWith v) (hstep : Takes lib q a q') :
    ∃ bs v', a.Serializes bs ∧ Run (World.Takes lib) v bs v' ∧
      (q'.Tracked ∧ TracksNodes v' ∧ q'.world.AgreesWith v') := by
  obtain ⟨hq, hv, hagrees⟩ := h
  obtain ⟨bs, v', hserial, hmatch, hagrees'⟩ := serial_step hq hv hagrees hstep
  exact ⟨bs, v', hserial, hmatch, hq.step hstep,
    hmatch.always (fun _ _ _ hw htakes => tracksNodes_step hw htakes) hv, hagrees'⟩

lemma serial_init : Pipeline.init.Tracked ∧ TracksNodes World.init ∧
    Pipeline.init.world.AgreesWith World.init :=
  ⟨tracked_init, ⟨tracks_init, nodeTable_empty⟩, rfl, rfl, rfl⟩

/-- The tables that the handlers write are those of a reachable world. -/
lemma exists_reachable {as : List PipelineStep} (hrun : Run (Takes lib) Pipeline.init as p) :
    ∃ v, World.Reachable lib (fun _ => True) v ∧ p.world.AgreesWith v := by
  obtain ⟨bss, v, -, hmatch, -, -, hagrees⟩ := hrun.simulated serial_sim serial_init
  exact ⟨v, ⟨_, hmatch, fun _ _ => trivial⟩, hagrees⟩

/-- **The pipeline is serial.**  Whatever the interleaving of uploads, handlers, failures and
restarts, and whatever logs the handlers read, the tables that the handlers write are those of a run
that takes the same handler calls one after the other, each received log uploaded just before. -/
theorem tables_serializable {as : List PipelineStep} (hrun : Run (Takes lib) Pipeline.init as p) :
    ∃ bss v, List.Forall₂ PipelineStep.Serializes as bss ∧
      Run (World.Takes lib) World.init bss.flatten v ∧ p.world.AgreesWith v := by
  obtain ⟨bss, v, hall, hmatch, -, -, hagrees⟩ := hrun.simulated serial_sim serial_init
  exact ⟨bss, v, hall, hmatch, hagrees⟩

/-- A log is uploaded while an earlier one of its station is being handled. -/
def overtakenRun : List PipelineStep :=
  [.event (.subscribe corsSiteSubscriber), .event (.subscribe nodeSubscriber),
    .event .startEventLoop, .upload SiteLog.clockRemoved,
    .event (.getPendingEvents
      [Event.raise 0 (.siteLogReceived ⟨"ADE1", ""⟩) corsSiteSubscriber.className]),
    .event (.published (.ofEpochSecond 1)), .upload SiteLog.clockless,
    .siteLogReceived .asListed .asStored SiteLog.clockRemoved.reload (.ofEpochSecond 2),
    .event .saved]

/-- The handler of the first log commits after the second one is stored. -/
theorem tables_serializable_overtaken :
    ∃ p, Run (Takes .ofContains) Pipeline.init overtakenRun p ∧
      p.world.store.siteLogs = [SiteLog.clockless.reload] ∧
      ∃ bss v, List.Forall₂ PipelineStep.Serializes overtakenRun bss ∧
        Run (World.Takes .ofContains) World.init bss.flatten v ∧ p.world.AgreesWith v := by
  obtain ⟨p, hrun, hcheck⟩ : ∃ p, Run (Takes .ofContains) Pipeline.init overtakenRun p ∧
      decide (p.world.store.siteLogs = [SiteLog.clockless.reload]) = true :=
    exists_run_of_foldlM (by decide +kernel)
  exact ⟨p, hrun, of_decide_eq_true hcheck, tables_serializable hrun⟩

end Pipeline

end Geodesy
