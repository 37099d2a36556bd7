import Geodesy.Nodes.Coverage
import Geodesy.Pipeline.Freshness
import Geodesy.Pipeline.Serial

/-!
# A station is up to date or announced

The two outboxes, in terms of the tables: the valid setups of a station realise the plan of its
stored log, or a record tells `CorsSiteService` about the log; and the nodes of a station agree with
its setups, or a record tells `NodeService` about the station.
-/

namespace Geodesy

open TransitionSystem

/-! ## Nodes that were updated since the last log -/

/-- The nodes of the station's invalidated setups are invalidated. -/
def NodesRetired (st : Store) (siteId : ℕ) : Prop :=
  ∀ n ∈ st.nodes, ∀ r ∈ st.setups, r.id = n.setupId → r.setup.siteId = siteId →
    r.invalidated = true → n.invalidated = true

/-- The update of another site's nodes. -/
lemma NodesRetired.updateNodes_other {st : Store} {k k' : ℕ} {rows : List SetupRow}
    (h : NodesRetired st k') (hready : NodeReady st)
    (hrows : rows.Perm (st.findSetupsBySiteId k)) : NodesRetired (st.updateNodes k rows) k' := by
  intro n hn r hr hid hsite hinv
  rcases mem_nodes_updateNodes.mp hn with ⟨m, hm, rfl⟩ | hn
  · rw [Node.retire_setupId] at hid
    rw [Node.retire_invalidated, h m hm r hr hid hsite hinv, Bool.true_or]
  · -- a new node is for a valid setup
    obtain ⟨q, hq, -, i, -, rfl⟩ := mem_freshNodes hn
    obtain ⟨hqmem, -, hvalid⟩ :=
      mem_findSetupsBySiteId.mp (hrows.subset (mem_visitedSetups hq).1)
    rw [List.inj_on_of_nodup_map hready.setupKeys hr hqmem hid, hvalid] at hinv
    cases hinv

/-- The nodes of every site that was updated since its last log are retired with their setups. -/
def RetiredWhenUpdated (w : World) : Prop :=
  ∀ id k, w.store.siteId id = some k → w.nodesUpdated id = true → NodesRetired w.store k

lemma RetiredWhenUpdated.step {lib : ListUtils} {w w' : World} {a : Step} (h : TracksNodes w)
    (hretired : RetiredWhenUpdated w) (hstep : World.Takes lib w a w') : RetiredWhenUpdated w' := by
  have hready := h.nodes.toNodeReady
  obtain ⟨st, hok, rfl⟩ := hstep
  cases a with
  | upload l =>
      obtain ⟨-, hframe⟩ := upload_inv h.tables.siteLogs hok
      intro id k hk hupd
      change NodesRetired st k
      change st.siteId id = some k at hk
      rw [hframe] at hk ⊢
      exact hretired id k hk hupd
  | siteLogReceived load rows e =>
      obtain ⟨l, site, saved, N, hby⟩ := handle_inv h.tables hok
      intro id k hk hupd
      change NodesRetired st k
      change st.siteId id = some k at hk
      by_cases hid : id = e.fourCharacterId
      · subst hid
        simp [World.after] at hupd
      · simp only [World.after, Function.update_of_ne hid] at hupd
        have hk' : w.store.siteId id = some k := by
          rw [← hby.siteSaved.siteId_other id hid, ← hby.siteId_eq, hk]
        have hne := hby.siteSaved.ne_of_other hid hk'
        have hnodes : st.nodes = w.store.nodes := by
          rw [hby.result, placeAll_frame, hby.siteSaved.frame]
        intro n hn r hr hrid hsite hinv
        have hr' : r ∈ st.findInvalidatedBySiteId k :=
          mem_findInvalidatedBySiteId.mpr ⟨hr, hsite, hinv⟩
        rw [hby.findInvalidated_other hne] at hr'
        obtain ⟨hmem, -, -⟩ := mem_findInvalidatedBySiteId.mp hr'
        exact hretired id k hk' hupd n (hnodes ▸ hn) r hmem hrid hsite hinv
  | siteUpdated rows e =>
      obtain ⟨owner, howner, rfl⟩ := nodeService_inv hready hok
      have hperm := rows.arrange_perm (w.store.findSetupsBySiteId owner.id)
      intro id k hk hupd
      have hk' : w.store.siteId id = some k := hk
      by_cases hid : id = e.fourCharacterId
      · subst hid
        obtain rfl : owner.id = k := by simpa [Store.siteId, howner] using hk'
        exact (nodesConsistent_updateNodes h.nodes hperm).retired
      · simp only [World.after, Function.update_of_ne hid] at hupd
        exact (hretired id k hk' hupd).updateNodes_other hready hperm

namespace Pipeline

variable {lib : ListUtils} {p : Pipeline}

/-- The setups that follow a log realise its plan. -/
lemma setupsRealise_of_follow (htracked : p.Tracked) {id : String} {l : SiteLog}
    (hstored : p.world.store.findSiteLog id = .ok (some l)) (hfollow : p.SetupsFollow id) :
    ∃ k read, p.world.store.siteId id = some k ∧ read.Iterates l ∧
      SetupsRealise p.world.store k read := by
  obtain ⟨read, hread, hiterates⟩ := hfollow l hstored
  cases hsite : p.world.store.siteId id with
  | none => exact absurd (htracked.world.unhandled id hsite) (by simp [hread])
  | some k =>
      obtain ⟨l', hl', -, hreal⟩ := htracked.world.handled id k hsite
      obtain rfl := Option.some.inj (hread.symm.trans hl')
      exact ⟨k, read, rfl, hiterates, hreal⟩

/-- A record for the subscriber of the class, about the station, that is not handled. -/
def Announces (p : Pipeline) (className : String) (about : DomainEvent → Option String)
    (id : String) : Prop :=
  ∃ r ∈ p.publisher.events.rows, r.subscriber = className ∧ about r.payload = some id ∧
    r.timeHandled = none

/-- The outboxes in terms of the records. -/
lemma OrderlyRun.announces {as : List PipelineStep} (hrun : OrderlyRun lib Pipeline.init as p)
    (id : String) :
    (p.SetupsFollow id ∨ p.Announces corsSiteSubscriber.className DomainEvent.receivedStation id) ∧
      (p.NodesFollow id ∨
        p.Announces nodeSubscriber.className DomainEvent.updatedStation id) := by
  obtain ⟨hlogs, hnodes⟩ := hrun.views
  constructor
  · by_cases hfollow : p.SetupsFollow id
    · exact .inl hfollow
    · obtain ⟨i, r, hr, -, hclass, hunhandled, habout⟩ := hlogs.announced id hfollow
      exact .inr ⟨r, hr, hclass, habout, hunhandled⟩
  · by_cases hfollow : p.NodesFollow id
    · exact .inl hfollow
    · obtain ⟨i, r, hr, -, hclass, hunhandled, habout⟩ := hnodes.announced id hfollow
      exact .inr ⟨r, hr, hclass, habout, hunhandled⟩

/-- **A log whose plan the setups do not realise is announced**, in every run of uploads, handlers,
failures and restarts in which no upload goes without its subscriber and no handler throws after it
called `handled`; also where an upload overtakes the handler of an earlier one. -/
theorem setups_current_or_announced {as : List PipelineStep}
    (hrun : OrderlyRun lib Pipeline.init as p) {id : String} {l : SiteLog}
    (hstored : p.world.store.findSiteLog id = .ok (some l)) :
    (∃ k read, p.world.store.siteId id = some k ∧ read.Iterates l ∧
        SetupsRealise p.world.store k read) ∨
      p.Announces corsSiteSubscriber.className DomainEvent.receivedStation id := by
  refine (hrun.announces id).1.imp_left fun hfollow => ?_
  exact setupsRealise_of_follow (hrun.sound sound_init).tracked hstored hfollow

/-- A run that was computed, with its steps checked. -/
lemma orderlyRun_of_foldlM {as : List PipelineStep} {check : Pipeline → Bool}
    (hrun : (as.foldlM (run lib) Pipeline.init).any check = true)
    (horderly : ((List.range as.length).all fun n =>
      ((as.take n).foldlM (run lib) Pipeline.init).all fun q =>
        (as[n]?).all fun a => decide (q.Orderly a)) = true) :
    ∃ p, OrderlyRun lib Pipeline.init as p ∧ check p = true := by
  obtain ⟨p, hp, hcheck⟩ := exists_run_of_foldlM hrun
  refine ⟨p, ⟨hp, fun q a q' hpass => ?_⟩, hcheck⟩
  exact of_decide_eq_true (passes_of_foldlM horderly q a q' hpass)

/-- The second log is stored, the first one is in the setups, and the second one is announced. -/
theorem setups_current_or_announced_overtaken :
    ∃ p, OrderlyRun .ofContains Pipeline.init overtakenRun p ∧
      p.world.lastLog "ADE1" = some SiteLog.clockRemoved.reload ∧
      ((∃ k read, p.world.store.siteId "ADE1" = some k ∧ read.Iterates SiteLog.clockless.reload ∧
          SetupsRealise p.world.store k read) ∨
        p.Announces corsSiteSubscriber.className DomainEvent.receivedStation "ADE1") := by
  obtain ⟨p, hrun, hcheck⟩ : ∃ p, OrderlyRun .ofContains Pipeline.init overtakenRun p ∧
      decide (p.world.store.siteLogs = [SiteLog.clockless.reload] ∧
        p.world.lastLog "ADE1" = some SiteLog.clockRemoved.reload) = true :=
    orderlyRun_of_foldlM (by decide +kernel) (by decide +kernel)
  obtain ⟨hlogs, hlast⟩ := of_decide_eq_true hcheck
  refine ⟨p, hrun, hlast, setups_current_or_announced hrun ?_⟩
  rw [Store.findSiteLog, hlogs]
  rfl

end Pipeline

end Geodesy
