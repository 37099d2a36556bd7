import Geodesy.Library.Periods
import Mathlib.Data.List.Nodup
import Mathlib.Data.List.Pairwise

/-!
# Covering a time line with longer periods

The elements of a list follow one another in time; each has its own `period`, and the complete ones
a longer period `node` around it.  Some of the complete ones are visited, so that every complete
element lies within the node of a visited one.  That is a `Cover`.

`Cover.apart_iff` says when the nodes do not overlap: not only those of the visited elements, but
also nodes that some other elements kept from earlier.
-/

/-- The elements `as`, in order, of which `vs` were visited. -/
structure Cover {α T : Type*} [LinearOrder T] (period node : α → Period T) (complete : α → Prop)
    (as vs : List α) : Prop where
  sublist : vs.Sublist as
  complete_of_visited : ∀ a ∈ vs, complete a
  order : as.Pairwise fun a b => (period a).Before (period b)
  proper : ∀ a ∈ as, (period a).Proper
  contains : ∀ a ∈ as, complete a → period a ≤ node a
  /-- a complete element lies within the node of a visited one: its own or one before it -/
  covered : ∀ a ∈ as, complete a →
    ∃ t ∈ vs, period a ≤ node t ∧ (t = a ∨ (period t).Before (period a))
  /-- a node that starts earlier than its element reaches back over a complete element -/
  reachesBack : ∀ a ∈ as, complete a → (node a).start = (period a).start ∨
    ∃ b ∈ as, complete b ∧ (period b).Before (period a) ∧ period b ≤ node a

namespace Cover

variable {α β T : Type*} [LinearOrder T] {period node : α → Period T} {complete : α → Prop}
  {as vs : List α}

lemma ne_of_before (h : Cover period node complete as vs) {a b : α} (ha : a ∈ as)
    (hab : (period a).Before (period b)) : a ≠ b := by
  rintro rfl
  exact h.proper a ha hab

/-- Two different nodes around one element's period overlap. -/
lemma not_apart_of_contains (h : Cover period node complete as vs) {a b c : α} (hc : c ∈ as)
    (ha : period c ≤ node a) (hb : period c ≤ node b) : ¬(node a).Apart (node b) :=
  Period.not_apart (h.proper c hc) ha hb

/-- **When the nodes do not overlap.**  Nodes are there for the visited elements and for the
elements that kept one.  They are pairwise apart exactly when nothing that was passed over kept a
node, the node of every visited element starts with the element, and it is over when the next
visited element begins. -/
theorem apart_iff (h : Cover period node complete as vs) (kept : α → Prop)
    (hkept : ∀ a ∈ as, kept a → complete a) :
    (∀ a ∈ as, ∀ b ∈ as, a ≠ b → kept a ∨ a ∈ vs → kept b ∨ b ∈ vs → (node a).Apart (node b)) ↔
      (∀ a ∈ as, kept a → a ∈ vs) ∧ (∀ a ∈ vs, (node a).start = (period a).start) ∧
        vs.Pairwise fun a b => (node a).Before (period b) := by
  constructor
  · intro hapart
    refine ⟨fun a ha hka => ?_, fun a hav => ?_, ?_⟩
    · -- a kept node that was passed over lies around the element, and so does the covering one
      by_contra hav
      obtain ⟨t, ht, hle, -⟩ := h.covered a ha (hkept a ha hka)
      have hta : t ≠ a := fun hta => hav (hta ▸ ht)
      exact h.not_apart_of_contains ha hle (h.contains a ha (hkept a ha hka))
        (hapart t (h.sublist.subset ht) a ha hta (Or.inr ht) (Or.inl hka))
    · -- a node that reaches back meets the node that covers the element it reaches back over
      have ha := h.sublist.subset hav
      rcases h.reachesBack a ha (h.complete_of_visited a hav) with heq | ⟨b, hb, hcb, hba, hle⟩
      · exact heq
      · obtain ⟨t, ht, hbt, htb⟩ := h.covered b hb hcb
        have hta : t ≠ a := by
          rcases htb with rfl | htb
          · exact h.ne_of_before hb hba
          · rintro rfl
            exact hba.asymm (h.proper b hb) (h.proper t ha) htb
        exact absurd (hapart t (h.sublist.subset ht) a ha hta (Or.inr ht) (Or.inr hav))
          (h.not_apart_of_contains hb hbt hle)
    · refine (h.order.sublist h.sublist).imp_of_mem fun {a b} ha hb hab => ?_
      have ha' := h.sublist.subset ha
      have hb' := h.sublist.subset hb
      have hca := h.contains a ha' (h.complete_of_visited a ha)
      have hcb := h.contains b hb' (h.complete_of_visited b hb)
      rcases hapart a ha' b hb' (h.ne_of_before ha' hab) (Or.inr ha) (Or.inr hb) with hn | hn
      · exact hn.mono (Period.le_refl _) hcb
      · exact absurd (hn.mono hcb hca) (hab.asymm (h.proper a ha') (h.proper b hb'))
  · rintro ⟨hkeptVisited, hstart, hover⟩ a ha b hb hab hka hkb
    have hav : a ∈ vs := hka.elim (hkeptVisited a ha) id
    have hbv : b ∈ vs := hkb.elim (hkeptVisited b hb) id
    have hnodes : vs.Pairwise fun a b => (node a).Before (node b) := by
      refine hover.imp_of_mem fun {a b} _ hb hab => ?_
      obtain ⟨t, hat, htb⟩ := hab
      exact ⟨t, hat, hstart b hb ▸ htb⟩
    have hsymm : Std.Symm fun a b => (node a).Apart (node b) := ⟨fun _ _ => Period.Apart.symm⟩
    exact (hnodes.imp (S := fun a b => (node a).Apart (node b)) Or.inl).forall hav hbv hab

/-- Two relations between neighbours hold together. -/
lemma isChain_and {R S : α → α → Prop} : ∀ {bs : List α}, bs.IsChain R → bs.IsChain S →
    bs.IsChain fun a b => R a b ∧ S a b
  | [], _, _ => List.IsChain.nil
  | [b], _, _ => List.IsChain.singleton b
  | a :: b :: bs, hR, hS => by
      rw [List.isChain_cons_cons] at hR hS ⊢
      exact ⟨⟨hR.1, hS.1⟩, isChain_and hR.2 hS.2⟩

/-- It is enough that every node is over when the next visited element begins. -/
lemma pairwise_over (h : Cover period node complete as vs)
    (hchain : vs.IsChain fun a b => (node a).Before (period b)) :
    vs.Pairwise fun a b => (node a).Before (period b) := by
  have horder := h.order.sublist h.sublist
  have hproper : ∀ a ∈ vs, (period a).Proper := fun a ha => h.proper a (h.sublist.subset ha)
  clear h
  induction vs with
  | nil => exact List.Pairwise.nil
  | cons a rest ih =>
      cases rest with
      | nil => exact List.pairwise_singleton _ a
      | cons b rest =>
          obtain ⟨hab, hrest⟩ := List.isChain_cons_cons.mp hchain
          have hb := List.pairwise_cons.mp horder.of_cons
          refine List.Pairwise.cons ?_
            (ih hrest horder.of_cons fun c hc => hproper c (List.mem_cons_of_mem _ hc))
          intro c hc
          rcases List.mem_cons.mp hc with rfl | hc
          · exact hab
          · -- what begins behind `b` begins later than `b`
            obtain ⟨t, hat, htb⟩ := hab
            obtain ⟨u, hbu, huc⟩ := hb.1 c hc
            refine ⟨t, hat, le_trans ?_ huc⟩
            by_contra hlt
            have hut : u < t := WithBot.coe_lt_coe.mp (not_le.mp hlt)
            exact hproper b (by simp) ⟨t, hbu.trans (WithTop.coe_le_coe.mpr hut.le), htb⟩

/-- A cover of the image is a cover. -/
lemma comap (h : Cover period node complete as vs) {f : β → α} {bs ws : List β}
    {period' node' : β → Period T} {complete' : β → Prop} (has : bs.map f = as)
    (hvs : ws.map f = vs) (hsub : ws.Sublist bs) (hperiod : ∀ b ∈ bs, period' b = period (f b))
    (hnode : ∀ b ∈ bs, complete (f b) → node' b = node (f b))
    (hcomplete : ∀ b ∈ bs, complete' b ↔ complete (f b)) :
    Cover period' node' complete' bs ws := by
  subst has hvs
  have hmem : ∀ {b}, b ∈ bs → f b ∈ bs.map f := fun hb => List.mem_map_of_mem hb
  have hws : ∀ {b}, b ∈ ws → f b ∈ ws.map f := fun hb => List.mem_map_of_mem hb
  -- no two elements have the same image: an element is not before itself
  have hinj : ∀ {b c}, b ∈ bs → c ∈ bs → f b = f c → b = c := by
    have hnodup : (bs.map f).Nodup :=
      h.order.imp_of_mem fun {a b} ha _ hab => h.ne_of_before ha hab
    intro b c hb hc hbc
    exact List.inj_on_of_nodup_map hnodup hb hc hbc
  refine ⟨hsub, ?_, ?_, ?_, ?_, ?_, ?_⟩
  · intro b hb
    exact (hcomplete b (hsub.subset hb)).mpr (h.complete_of_visited _ (hws hb))
  · have horder := List.pairwise_map.mp h.order
    refine horder.imp_of_mem fun {a b} ha hb hab => ?_
    rw [hperiod a ha, hperiod b hb]
    exact hab
  · intro b hb
    rw [hperiod b hb]
    exact h.proper _ (hmem hb)
  · intro b hb hc
    have hc' := (hcomplete b hb).mp hc
    rw [hperiod b hb, hnode b hb hc']
    exact h.contains _ (hmem hb) hc'
  · intro b hb hc
    obtain ⟨t, ht, hle, hbefore⟩ := h.covered _ (hmem hb) ((hcomplete b hb).mp hc)
    obtain ⟨u, hu, rfl⟩ := List.mem_map.mp ht
    have hu' := hsub.subset hu
    refine ⟨u, hu, ?_, ?_⟩
    · rw [hperiod b hb, hnode u hu' (h.complete_of_visited _ ht)]
      exact hle
    · rw [hperiod b hb, hperiod u hu']
      exact hbefore.imp_left (hinj hu' hb)
  · intro b hb hc
    have hc' := (hcomplete b hb).mp hc
    rw [hperiod b hb, hnode b hb hc']
    refine (h.reachesBack _ (hmem hb) hc').imp_right ?_
    rintro ⟨a, ha, hca, hab, hle⟩
    obtain ⟨d, hd, rfl⟩ := List.mem_map.mp ha
    exact ⟨d, hd, (hcomplete d hd).mpr hca, by rwa [hperiod d hd], by rwa [hperiod d hd]⟩

end Cover
