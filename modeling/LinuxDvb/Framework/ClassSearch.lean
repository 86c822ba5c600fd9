import LinuxDvb.Framework.Lists
import Mathlib.Data.List.Pairwise

/-!
# Searching classes by changing representatives

A search keeps a list of entries that it has taken up and a frontier of entries that it has not. Items count as one
when a reflexive and symmetric relation holds, which need not be transitive.
-/

namespace LinuxDvb

variable {α : Type}

/-- The relation is transitive on the items with `K`. -/
def TransitiveOn (r : α → α → Prop) (K : α → Prop) : Prop :=
  ∀ a b c, K a → K b → K c → r a b → r b c → r a c

theorem TransitiveOn.mono {r : α → α → Prop} {K K' : α → Prop} (h : TransitiveOn r K') (hK : ∀ a, K a → K' a) :
    TransitiveOn r K :=
  fun a b c ha hb hc => h a b c (hK a ha) (hK b hb) (hK c hc)

/-- The state of a search: the items that have come up, those that have been tried and those that were reached. -/
structure ClassSearch (r : α → α → Prop) (closed frontier : List α) (Known Tried Reached : α → Prop) : Prop where
  known : ∀ a ∈ closed ++ frontier, Known a
  covers : ∀ a, Known a → ∃ b ∈ closed ++ frontier, r a b
  apart : frontier.Pairwise fun a b => ¬ r a b
  fresh : ∀ a ∈ frontier, ∀ b ∈ closed, ¬ r a b
  tried : ∀ b ∈ closed, ∃ a, Tried a ∧ Known a ∧ r b a
  reached : ∀ a, Reached a → Known a ∧ ∃ b ∈ closed, r a b

namespace ClassSearch

variable {r : α → α → Prop} {closed frontier : List α} {Known Known' Tried Tried' Reached Reached' : α → Prop}

theorem mono (h : ClassSearch r closed frontier Known Tried Reached) (hKnown : ∀ a, Known' a ↔ Known a)
    (hTried : ∀ a, Tried a → Tried' a) (hReached : ∀ a, Reached' a → Reached a) :
    ClassSearch r closed frontier Known' Tried' Reached' where
  known a ha := (hKnown a).mpr (h.known a ha)
  covers a ha := h.covers a ((hKnown a).mp ha)
  apart := h.apart
  fresh := h.fresh
  tried b hb := by
    obtain ⟨a,ha,hknown,hr⟩ := h.tried b hb
    exact ⟨a,hTried a ha,(hKnown a).mpr hknown,hr⟩
  reached a ha := by
    obtain ⟨hknown,hb⟩ := h.reached a (hReached a ha)
    exact ⟨(hKnown a).mpr hknown,hb⟩

section Lookup

variable {f : α}

theorem perm (hsymm : ∀ a b, r a b → r b a) {frontier' : List α} (hperm : frontier.Perm frontier')
    (h : ClassSearch r closed frontier Known Tried Reached) :
    ClassSearch r closed frontier' Known Tried Reached where
  known a ha := h.known a ((hperm.append_left closed).mem_iff.mpr ha)
  covers a ha := by
    obtain ⟨b,hb,hr⟩ := h.covers a ha
    exact ⟨b,(hperm.append_left closed).mem_iff.mp hb,hr⟩
  apart := (hperm.pairwise_iff fun hab hba => hab (hsymm _ _ hba)).mp h.apart
  fresh a ha := h.fresh a (hperm.mem_iff.mpr ha)
  tried := h.tried
  reached := h.reached

theorem add (hrefl : ∀ a, r a a) (hsymm : ∀ a b, r a b → r b a) (hKnown : ∀ a, Known' a ↔ Known a ∨ a = f)
    (hmiss : ∀ b ∈ closed ++ frontier, ¬ r b f) (h : ClassSearch r closed frontier Known Tried Reached) :
    ClassSearch r closed (f :: frontier) Known' Tried Reached where
  known a ha := by
    rw [mem_append,mem_cons,or_left_comm,← mem_append] at ha
    exact (hKnown a).mpr (ha.symm.imp_left (h.known a))
  covers a ha := by
    obtain ha | rfl := (hKnown a).mp ha
    · obtain ⟨b,hb,hr⟩ := h.covers a ha
      exact ⟨b,(List.Sublist.append_left (List.sublist_cons_self f frontier) closed).subset hb,hr⟩
    · exact ⟨a,mem_append_right _ mem_cons_self,hrefl a⟩
  apart := List.pairwise_cons.mpr
    ⟨fun b hb hr => hmiss b (mem_append_right _ hb) (hsymm _ _ hr),h.apart⟩
  fresh := by
    intro a ha b hb hr
    obtain rfl | ha := mem_cons.mp ha
    · exact hmiss b (mem_append_left _ hb) (hsymm _ _ hr)
    · exact h.fresh a ha b hb hr
  tried b hb := by
    obtain ⟨a,ha,hknown,hr⟩ := h.tried b hb
    exact ⟨a,ha,(hKnown a).mpr (.inl hknown),hr⟩
  reached a ha := by
    obtain ⟨hknown,hb⟩ := h.reached a ha
    exact ⟨(hKnown a).mpr (.inl hknown),hb⟩

variable {before after : List α} {c : α}

theorem mem_replace {a : α} (ha : a ∈ before ++ f :: after) : a = f ∨ a ∈ before ++ c :: after := by
  simp only [mem_append,mem_cons] at ha ⊢
  tauto

theorem mem_replaced {a : α} (ha : a ∈ before ++ c :: after) : a = c ∨ a ∈ before ++ f :: after := by
  simp only [mem_append,mem_cons] at ha ⊢
  tauto

theorem replace_closed (hrefl : ∀ a, r a a) (hsymm : ∀ a b, r a b → r b a)
    (hKnown : ∀ a, Known' a ↔ Known a ∨ a = f) (htrans : TransitiveOn r Known') (hcf : r c f)
    (h : ClassSearch r (before ++ c :: after) frontier Known Tried Reached) :
    ClassSearch r (before ++ f :: after) frontier Known' Tried Reached := by
  have hc : Known c := h.known c (by simp)
  have old : ∀ a, Known a → Known' a := fun a ha => (hKnown a).mpr (.inl ha)
  have hf : Known' f := (hKnown f).mpr (.inr rfl)
  have represented : ∀ a, Known a → (∃ b ∈ before ++ c :: after, r a b) → ∃ b ∈ before ++ f :: after, r a b := by
    rintro a ha ⟨b,hb,hr⟩
    obtain rfl | hb := mem_replaced (f := f) hb
    · exact ⟨f,by simp,htrans a b f (old a ha) (old b hc) hf hr hcf⟩
    · exact ⟨b,hb,hr⟩
  constructor
  · intro a ha
    obtain ha | ha := mem_append.mp ha
    · obtain rfl | ha := mem_replace (c := c) ha
      · exact hf
      · exact old a (h.known a (mem_append_left _ ha))
    · exact old a (h.known a (mem_append_right _ ha))
  · intro a ha
    obtain ha | rfl := (hKnown a).mp ha
    · obtain ⟨b,hb,hr⟩ := h.covers a ha
      obtain hb | hb := mem_append.mp hb
      · obtain ⟨b,hb,hr⟩ := represented a ha ⟨b,hb,hr⟩
        exact ⟨b,mem_append_left _ hb,hr⟩
      · exact ⟨b,mem_append_right _ hb,hr⟩
    · exact ⟨a,by simp,hrefl a⟩
  · exact h.apart
  · intro a ha b hb hr
    have hknown : Known a := h.known a (mem_append_right _ ha)
    obtain rfl | hb := mem_replace (c := c) hb
    · exact h.fresh a ha c (by simp) (htrans a b c (old a hknown) hf (old c hc) hr (hsymm _ _ hcf))
    · exact h.fresh a ha b hb hr
  · intro b hb
    obtain rfl | hb := mem_replace (c := c) hb
    · obtain ⟨a,ha,hknown,hr⟩ := h.tried c (by simp)
      exact ⟨a,ha,old a hknown,htrans b c a hf (old c hc) (old a hknown) (hsymm _ _ hcf) hr⟩
    · obtain ⟨a,ha,hknown,hr⟩ := h.tried b hb
      exact ⟨a,ha,old a hknown,hr⟩
  · intro a ha
    obtain ⟨hknown,hb⟩ := h.reached a ha
    exact ⟨old a hknown,represented a hknown hb⟩

theorem replace_frontier (hrefl : ∀ a, r a a) (hsymm : ∀ a b, r a b → r b a)
    (hKnown : ∀ a, Known' a ↔ Known a ∨ a = f) (htrans : TransitiveOn r Known') (hcf : r c f)
    (h : ClassSearch r closed (before ++ c :: after) Known Tried Reached) :
    ClassSearch r closed (before ++ f :: after) Known' Tried Reached := by
  have hc : Known c := h.known c (by simp)
  have old : ∀ a, Known a → Known' a := fun a ha => (hKnown a).mpr (.inl ha)
  have hf : Known' f := (hKnown f).mpr (.inr rfl)
  have like : ∀ a, Known a → r f a → r c a := fun a ha hr =>
    htrans c f a (old c hc) hf (old a ha) hcf hr
  have hperm (x : α) : (x :: (before ++ after)).Perm (before ++ x :: after) := List.perm_middle.symm
  have hfirst : ClassSearch r closed (c :: (before ++ after)) Known Tried Reached := h.perm hsymm (hperm c).symm
  refine ClassSearch.perm hsymm (hperm f) ?_
  have hrest : ∀ a ∈ closed ++ (before ++ after), Known a := fun a ha =>
    hfirst.known a ((List.Sublist.append_left (List.sublist_cons_self c _) closed).subset ha)
  constructor
  · intro a ha
    rw [mem_append,mem_cons,or_left_comm,← mem_append] at ha
    exact (hKnown a).mpr (ha.symm.imp_left (hrest a))
  · intro a ha
    obtain ha | rfl := (hKnown a).mp ha
    · obtain ⟨b,hb,hr⟩ := hfirst.covers a ha
      rw [mem_append,mem_cons,or_left_comm,← mem_append] at hb
      obtain rfl | hb := hb
      · exact ⟨f,by simp,htrans a b f (old a ha) (old b hc) hf hr hcf⟩
      · exact ⟨b,(List.Sublist.append_left (List.sublist_cons_self f _) closed).subset hb,hr⟩
    · exact ⟨a,by simp,hrefl a⟩
  · obtain ⟨hhead,htail⟩ := List.pairwise_cons.mp hfirst.apart
    refine List.pairwise_cons.mpr ⟨fun b hb hr => hhead b hb (like b ?_ hr),htail⟩
    exact hrest b (mem_append_right _ hb)
  · intro a ha b hb hr
    obtain rfl | ha := mem_cons.mp ha
    · exact hfirst.fresh c mem_cons_self b hb (like b (hrest b (mem_append_left _ hb)) hr)
    · exact hfirst.fresh a (mem_cons_of_mem _ ha) b hb hr
  · intro b hb
    obtain ⟨a,ha,hknown,hr⟩ := h.tried b hb
    exact ⟨a,ha,old a hknown,hr⟩
  · intro a ha
    obtain ⟨hknown,hb⟩ := h.reached a ha
    exact ⟨old a hknown,hb⟩

end Lookup

variable {x : α}

theorem unreached (hsymm : ∀ a b, r a b → r b a) (htrans : TransitiveOn r Known)
    (h : ClassSearch r closed (x :: frontier) Known Tried Reached) {a : α} (ha : Reached a) : ¬ r a x := by
  intro hr
  obtain ⟨hknown,b,hb,hab⟩ := h.reached a ha
  have hx : Known x := h.known x (by simp)
  have hb' : Known b := h.known b (mem_append_left _ hb)
  exact h.fresh x mem_cons_self b hb (htrans x a b hx hknown hb' (hsymm _ _ hr) hab)

theorem take (hrefl : ∀ a, r a a) (hsymm : ∀ a b, r a b → r b a) (hTried : ∀ a, Tried a → Tried' a) (hx : Tried' x)
    (hReached : ∀ a, Reached' a → Reached a ∨ a = x)
    (h : ClassSearch r closed (x :: frontier) Known Tried Reached) :
    ClassSearch r (closed ++ [x]) frontier Known Tried' Reached' := by
  have hassoc : closed ++ [x] ++ frontier = closed ++ x :: frontier := by simp
  obtain ⟨hhead,htail⟩ := List.pairwise_cons.mp h.apart
  constructor
  · rw [hassoc]
    exact h.known
  · rw [hassoc]
    exact h.covers
  · exact htail
  · intro a ha b hb hr
    obtain hb | hb := mem_append.mp hb
    · exact h.fresh a (mem_cons_of_mem _ ha) b hb hr
    · rw [mem_singleton.mp hb] at hr
      exact hhead a ha (hsymm _ _ hr)
  · intro b hb
    obtain hb | hb := mem_append.mp hb
    · obtain ⟨a,ha,hknown⟩ := h.tried b hb
      exact ⟨a,hTried a ha,hknown⟩
    · rw [mem_singleton.mp hb]
      exact ⟨x,hx,h.known x (by simp),hrefl x⟩
  · intro a ha
    obtain ha | rfl := hReached a ha
    · obtain ⟨hknown,b,hb,hr⟩ := h.reached a ha
      exact ⟨hknown,b,mem_append_left _ hb,hr⟩
    · exact ⟨h.known a (by simp),a,by simp,hrefl a⟩

theorem finished (htrans : TransitiveOn r Known) (h : ClassSearch r closed [] Known Tried Reached) {a : α}
    (ha : Known a) : ∃ b, Tried b ∧ Known b ∧ r a b := by
  obtain ⟨c,hc,hac⟩ := h.covers a ha
  have hc' := h.known c hc
  rw [append_nil] at hc
  obtain ⟨b,hb,hknown,hcb⟩ := h.tried c hc
  exact ⟨b,hb,hknown,htrans a c b ha hc' hknown hac hcb⟩

end ClassSearch

end LinuxDvb
