import LinuxDvb.Framework.ClassSearch
import LinuxDvb.Scan.Transponder
import Mathlib.Data.Fintype.Card
import Mathlib.Data.Fintype.List

/-!
# scan visits each transponder once

The scanned and the new transponders are the closed entries and the frontier of a search by classes, so scan is right
as long as `is_same_transponder` is transitive on the frequencies that come up.
-/

namespace LinuxDvb.Scan

/-! ## The contract -/

def TunedOnce (events : List ScanEvent) : Prop :=
  events.Pairwise fun e e' => ∀ f g lock, e = .tuned f true → e' = .tuned g lock → ¬ IsSameTransponder f g

def AllTuned (events : List ScanEvent) : Prop :=
  ∀ g, .listed g ∈ events → ∃ f lock, .tuned f lock ∈ events ∧ IsSameTransponder g f

structure VisitsOnce (c : Config) (w : World) (lines : List InitialLine) : Prop where
  once : ∀ n, TunedOnce (scanNetwork c w lines n).2.events
  all : ∀ n, (scanNetwork c w lines n).1 = false → AllTuned (scanNetwork c w lines n).2.events
  ends : ∃ n, (scanNetwork c w lines n).1 = false

def ScanState.Known (s : ScanState) (f : UInt32) : Prop := .initial f ∈ s.events ∨ .looked f ∈ s.events

/-- The frequencies tell the transponders apart, and no transponder of a table is one that was passed over. -/
structure ScanState.Consistent (s : ScanState) : Prop where
  transitive : TransitiveOn IsSameTransponder s.Known
  heeded : ∀ g f, .listed g ∈ s.events → .skipped f ∈ s.events → ¬ IsSameTransponder g f

/-! ## The search -/

@[refl] theorem IsSameTransponder.refl (f : UInt32) : IsSameTransponder f f := .inl rfl

theorem IsSameTransponder.symm {f g : UInt32} (h : IsSameTransponder f g) : IsSameTransponder g f := by
  obtain rfl | h := h
  · exact .inl rfl
  · by_cases heq : f = g
    · exact .inl heq.symm
    · right
      by_cases hlt : f < g
      · rw [if_neg (UInt32.lt_asymm hlt)] at h
        rwa [if_pos (show g > f from hlt)]
      · have hgt : f > g := UInt32.lt_of_le_of_ne (UInt32.not_lt.mp hlt) (Ne.symm heq)
        rw [if_pos hgt] at h
        rwa [if_neg (show ¬ g > f from hlt)]

/-- Frequencies that `tune_to_transponder` has been called for. -/
def ScanState.Tried (s : ScanState) (f : UInt32) : Prop :=
  (∃ lock, .tuned f lock ∈ s.events) ∨ .skipped f ∈ s.events

def ScanState.Locked (s : ScanState) (f : UInt32) : Prop := .tuned f true ∈ s.events

def ScanState.Search (s : ScanState) : Prop :=
  ClassSearch IsSameTransponder (s.scanned.map Transponder.frequency) (s.new.map Transponder.frequency)
    s.Known s.Tried s.Locked

structure ScanState.Sound (s : ScanState) : Prop where
  search : s.Search
  once : TunedOnce s.events
  listed : ∀ f, .listed f ∈ s.events → s.Known f

/-- From `s` the run comes to `s'`, and keeps the invariant if the frequencies stay transitive. -/
structure Leads (s s' : ScanState) : Prop where
  grows : s.events <+: s'.events
  keeps : (TransitiveOn IsSameTransponder s.Known → s.Sound) → TransitiveOn IsSameTransponder s'.Known → s'.Sound

theorem Leads.refl (s : ScanState) : Leads s s := ⟨prefix_refl _, id⟩

theorem Leads.trans {s s' s'' : ScanState} (h : Leads s s') (h' : Leads s' s'') : Leads s s'' :=
  ⟨h.grows.trans h'.grows, fun hs => h'.keeps (h.keeps hs)⟩

theorem ScanState.Known.mono {s s' : ScanState} (h : s.events <+: s'.events) {f : UInt32} (hf : s.Known f) :
    s'.Known f :=
  hf.imp (fun h' => h.subset h') (fun h' => h.subset h')

theorem Leads.of_sound {s s' : ScanState} (hgrows : s.events <+: s'.events)
    (h : TransitiveOn IsSameTransponder s'.Known → s.Sound → s'.Sound) : Leads s s' :=
  ⟨hgrows, fun hs ht => h ht (hs (ht.mono fun _ => ScanState.Known.mono hgrows))⟩

/-! ## Lookups -/

section Lookup

variable {f : UInt32} {found : Transponder → Transponder}

variable {ts : List Transponder}

theorem overwrite_some (hfound : ∀ t : Transponder, (found (t.setFrequency f)).frequency = f) {ts' : List Transponder}
    (h : overwrite f found ts = some ts') :
    ∃ before c after, IsSameTransponder c f ∧ ts.map Transponder.frequency = before ++ c :: after ∧
      ts'.map Transponder.frequency = before ++ f :: after := by
  induction ts generalizing ts' with
  | nil => cases h
  | cons t ts ih =>
    rw [overwrite] at h
    split_ifs at h with hsame
    · rw [← Option.some.inj h]
      exact ⟨[],t.frequency,ts.map Transponder.frequency,hsame,rfl,by simp [hfound]⟩
    · obtain ⟨us,hus,rfl⟩ := map_eq_some_iff.mp h
      obtain ⟨before,c,after,hc,hmap,hmap'⟩ := ih hus
      exact ⟨t.frequency :: before,c,after,hc,by simp [hmap],by simp [hmap']⟩

theorem overwrite_none (h : overwrite f found ts = none) :
    ∀ c ∈ ts.map Transponder.frequency, ¬ IsSameTransponder c f := by
  induction ts with
  | nil => simp
  | cons t ts ih =>
    rw [overwrite] at h
    split_ifs at h with hsame
    rw [map_cons,forall_mem_cons]
    exact ⟨hsame,ih (Option.map_eq_none_iff.mp h)⟩

theorem overwrite_length {ts' : List Transponder} (h : overwrite f found ts = some ts') : ts'.length = ts.length := by
  induction ts generalizing ts' with
  | nil => cases h
  | cons t ts ih =>
    rw [overwrite] at h
    split_ifs at h with hsame
    · rw [← Option.some.inj h,length_cons,length_cons]
    · obtain ⟨us,hus,rfl⟩ := map_eq_some_iff.mp h
      rw [length_cons,length_cons,ih hus]

theorem TunedOnce.record {events : List ScanEvent} (h : TunedOnce events) {e : ScanEvent}
    (he : ∀ g lock, e ≠ .tuned g lock) : TunedOnce (events ++ [e]) := by
  refine List.pairwise_append.mpr ⟨h,List.pairwise_singleton _ _,?_⟩
  rintro a - b hb f g lock - hg
  exact absurd ((mem_singleton.mp hb).symm.trans hg) (he g lock)

/-- `p` is `s` when `f` is going to be looked up: nothing has changed but the events. -/
structure Prepared (f : UInt32) (s p : ScanState) : Prop where
  scanned : p.scanned.map Transponder.frequency = s.scanned.map Transponder.frequency
  new : p.new.map Transponder.frequency = s.new.map Transponder.frequency
  events : p.events = s.events ++ [.looked f] ∨ p.events = s.events ++ [.listed f, .looked f]

namespace Prepared

variable {s p : ScanState}

theorem grows (h : Prepared f s p) : s.events <+: p.events := by
  obtain h | h := h.events
  · exact ⟨_,h.symm⟩
  · exact ⟨_,h.symm⟩

theorem known (h : Prepared f s p) (g : UInt32) : p.Known g ↔ s.Known g ∨ g = f := by
  obtain h | h := h.events
  · simp [ScanState.Known,h,or_assoc]
  · simp [ScanState.Known,h,or_assoc]

theorem tried (h : Prepared f s p) (g : UInt32) (hg : s.Tried g) : p.Tried g :=
  hg.imp (fun ⟨lock, hg⟩ => ⟨lock, h.grows.subset hg⟩) fun hg => h.grows.subset hg

theorem locked (h : Prepared f s p) (g : UInt32) (hg : p.Locked g) : s.Locked g := by
  obtain h | h := h.events
  · simpa [ScanState.Locked,h] using hg
  · simpa [ScanState.Locked,h] using hg

theorem once (h : Prepared f s p) (hs : TunedOnce s.events) : TunedOnce p.events := by
  obtain h | h := h.events
  · exact h ▸ hs.record (by simp)
  · rw [h,List.append_cons]
    exact (hs.record (by simp)).record (by simp)

theorem listed (h : Prepared f s p) (hs : s.Sound) (g : UInt32) (hg : .listed g ∈ p.events) : p.Known g := by
  obtain hevents | hevents := h.events
  · exact (h.known g).mpr (.inl (hs.listed g (by simpa [hevents] using hg)))
  · obtain hg | rfl : .listed g ∈ s.events ∨ g = f := by simpa [hevents] using hg
    · exact (h.known g).mpr (.inl (hs.listed g hg))
    · exact (h.known g).mpr (.inr rfl)

/-- If the frequency of one transponder is overwritten, or a transponder is added, and the search goes on, the run does. -/
theorem leads (h : Prepared f s p) {s' : ScanState} (hevents : s'.events = p.events)
    (hsearch : TransitiveOn IsSameTransponder p.Known → s.Search → s'.Search) : Leads s s' := by
  obtain ⟨scanned,new,attempts,events⟩ := s'
  cases hevents
  refine Leads.of_sound h.grows fun htrans hs => ⟨hsearch htrans hs.search,h.once hs.once,h.listed hs⟩

end Prepared

theorem findTransponder_some (hfound : ∀ t : Transponder, (found (t.setFrequency f)).frequency = f)
    {s p s' : ScanState} (hp : Prepared f s p) (h : findTransponder f found p = some s') :
    s'.new.length = s.new.length ∧ Leads s s' := by
  have hlength : p.new.length = s.new.length := by simpa using congrArg List.length hp.new
  rw [findTransponder] at h
  cases hscanned : overwrite f found p.scanned with
  | some scanned =>
    rw [hscanned] at h
    obtain rfl := Option.some.inj h
    obtain ⟨before,c,after,hc,hmap,hmap'⟩ := overwrite_some hfound hscanned
    refine ⟨hlength,hp.leads rfl fun htrans hs => ?_⟩
    rw [ScanState.Search,← hp.scanned,← hp.new,hmap] at hs
    have hreplaced := hs.replace_closed .refl (fun _ _ => .symm) hp.known htrans hc
    rw [ScanState.Search,hmap']
    exact hreplaced.mono (fun _ => Iff.rfl) hp.tried hp.locked
  | none =>
    cases hnew : overwrite f found p.new with
    | some new =>
      rw [hscanned,hnew] at h
      obtain rfl := Option.some.inj h
      obtain ⟨before,c,after,hc,hmap,hmap'⟩ := overwrite_some hfound hnew
      refine ⟨(overwrite_length hnew).trans hlength,hp.leads rfl fun htrans hs => ?_⟩
      rw [ScanState.Search,← hp.scanned,← hp.new,hmap] at hs
      have hreplaced := hs.replace_frontier .refl (fun _ _ => .symm) hp.known htrans hc
      rw [ScanState.Search,hmap']
      exact hreplaced.mono (fun _ => Iff.rfl) hp.tried hp.locked
    | none => simp [hscanned,hnew] at h

theorem findTransponder_none {s : ScanState} (h : findTransponder f found s = none) :
    ∀ c ∈ s.scanned.map Transponder.frequency ++ s.new.map Transponder.frequency, ¬ IsSameTransponder c f := by
  rw [findTransponder] at h
  cases hscanned : overwrite f found s.scanned with
  | some scanned => simp [hscanned] at h
  | none =>
    cases hnew : overwrite f found s.new with
    | some new => simp [hscanned,hnew] at h
    | none =>
      rw [forall_mem_append]
      exact ⟨overwrite_none hscanned,overwrite_none hnew⟩

theorem Prepared.leads_cons {s p : ScanState} (hp : Prepared f s p) (h : findTransponder f found p = none)
    {s' : ScanState} (hevents : s'.events = p.events)
    (hscanned : s'.scanned.map Transponder.frequency = s.scanned.map Transponder.frequency)
    (hnew : (s'.new.map Transponder.frequency).Perm (f :: s.new.map Transponder.frequency)) : Leads s s' := by
  refine hp.leads hevents fun htrans hs => ?_
  have hmiss := findTransponder_none h
  rw [hp.scanned,hp.new] at hmiss
  have hadded := (hs.add .refl (fun _ _ => .symm) hp.known hmiss).mono (fun _ => Iff.rfl) hp.tried hp.locked
  rw [ScanState.Search,hscanned]
  obtain ⟨scanned,new,attempts,events⟩ := s'
  cases hevents
  exact hadded.perm (fun _ _ => .symm) hnew.symm

end Lookup

/-! ## Tables -/

theorem addListed_leads (c : Config) (tn : Transponder) (s : ScanState) : Leads s (addListed c tn s) := by
  rw [addListed]
  split_ifs with htype
  · have hp : Prepared tn.frequency s ((s.record (.listed tn.frequency)).record (.looked tn.frequency)) :=
      ⟨rfl,rfl,.inr (by simp [ScanState.record])⟩
    dsimp only
    split
    next s' h => exact (findTransponder_some (fun _ => rfl) hp h).2
    next h =>
      refine hp.leads_cons h ?_ ?_ ?_
      · rfl
      · rfl
      simp only [allocTransponder,map_append,map_cons,map_nil,frequency_copyTransponder]
      exact List.perm_append_singleton _ _
  · exact Leads.refl s

theorem nitLoop_leads (c : Config) (networkId : UInt16) (fuel : Nat) (buf : Mem UInt8) (len : Nat) (s : ScanState) :
    Leads s (nitLoop c networkId fuel buf len s) := by
  induction fuel generalizing buf len s with
  | zero => exact Leads.refl s
  | succ fuel ih =>
    rw [nitLoop]
    split_ifs
    · exact Leads.refl s
    · exact (addListed_leads c _ s).trans (ih _ _ _)
    · exact Leads.refl s

theorem parseNit_leads (c : Config) (nit : NitSection) (s : ScanState) : Leads s (parseNit c nit s) := by
  rw [parseNit]
  split_ifs
  · exact Leads.refl s
  · exact nitLoop_leads c _ _ _ _ s

theorem parseNits_leads (c : Config) (nits : List NitSection) (s : ScanState) :
    Leads s (nits.foldl (fun s nit => parseNit c nit s) s) := by
  induction nits generalizing s with
  | nil => exact Leads.refl s
  | cons nit nits ih => exact (parseNit_leads c nit s).trans (ih _)

/-! ## Tuning -/

section Tuning

variable {c : Config} {w : World} {t : Transponder} {s s' : ScanState}

/-- The state with the transponder that is being tuned to still at the head of the new ones. -/
def ScanState.hand (s : ScanState) (t : Transponder) : ScanState := { s with new := t :: s.new }

theorem Leads.of_frequencies (hevents : s'.events = s.events)
    (hscanned : s'.scanned.map Transponder.frequency = s.scanned.map Transponder.frequency)
    (hnew : s'.new.map Transponder.frequency = s.new.map Transponder.frequency) : Leads s s' := by
  obtain ⟨scanned,new,attempts,events⟩ := s'
  cases hevents
  refine Leads.of_sound (prefix_refl _) fun _ hs => ⟨?_,hs.once,hs.listed⟩
  rw [ScanState.Search,hscanned,hnew]
  exact hs.search

theorem ScanState.Sound.once_tuned (hs : (s.hand t).Sound)
    (htrans : TransitiveOn IsSameTransponder (s.hand t).Known) (lock : Bool) :
    TunedOnce (s.events ++ [.tuned t.frequency lock]) := by
  refine List.pairwise_append.mpr ⟨hs.once,List.pairwise_singleton _ _,?_⟩
  rintro a ha b hb f g lock' rfl hg
  obtain ⟨rfl,-⟩ : t.frequency = g ∧ lock = lock' := by simpa using (mem_singleton.mp hb).symm.trans hg
  exact hs.search.unreached (fun _ _ => .symm) htrans ha

inductive AttemptEvent (f : UInt32) : ScanEvent → Bool → Prop
  | skipped : AttemptEvent f (.skipped f) false
  | tuned (lock : Bool) : AttemptEvent f (.tuned f lock) lock

theorem tuneAttempt_spec (w : World) (t : Transponder) (s : ScanState) :
    (tuneAttempt w t s).2.1.frequency = t.frequency ∧
      (tuneAttempt w t s).2.2.scanned = s.scanned ∧ (tuneAttempt w t s).2.2.new = s.new ∧
      ∃ e, AttemptEvent t.frequency e (tuneAttempt w t s).1 ∧
        (tuneAttempt w t s).2.2.events = s.events ++ [e] := by
  rw [tuneAttempt]
  split_ifs
  · exact ⟨rfl,rfl,rfl,_,.skipped,rfl⟩
  · dsimp only
    split
    · exact ⟨rfl,rfl,rfl,_,.tuned false,rfl⟩
    · exact ⟨rfl,rfl,rfl,_,.tuned false,rfl⟩
    · exact ⟨rfl,rfl,rfl,_,.tuned true,rfl⟩

variable {e : ScanEvent} {ok : Bool}

theorem AttemptEvent.known {f : UInt32} (he : AttemptEvent f e ok)
    (hevents : s'.events = s.events ++ [e]) (g : UInt32) : s'.Known g ↔ s.Known g := by
  cases he <;> simp [ScanState.Known,hevents]

theorem AttemptEvent.tried {f : UInt32} (he : AttemptEvent f e ok)
    (hevents : s'.events = s.events ++ [e]) (g : UInt32) : s'.Tried g ↔ s.Tried g ∨ g = f := by
  cases he with
  | skipped => simp [ScanState.Tried,hevents,or_assoc]
  | tuned lock => simp [ScanState.Tried,hevents,exists_or,or_right_comm]

theorem AttemptEvent.locked {f : UInt32} (he : AttemptEvent f e ok)
    (hevents : s'.events = s.events ++ [e]) (g : UInt32) : s'.Locked g ↔ s.Locked g ∨ g = f ∧ ok = true := by
  cases he with
  | skipped => simp [ScanState.Locked,hevents]
  | tuned lock => simp [ScanState.Locked,hevents]

theorem AttemptEvent.listed {f : UInt32} (he : AttemptEvent f e ok)
    (hevents : s'.events = s.events ++ [e]) (g : UInt32) : .listed g ∈ s'.events ↔ .listed g ∈ s.events := by
  cases he <;> simp [hevents]

theorem AttemptEvent.once (he : AttemptEvent t.frequency e ok) (hs : (s.hand t).Sound)
    (htrans : TransitiveOn IsSameTransponder (s.hand t).Known) : TunedOnce (s.events ++ [e]) := by
  cases he with
  | skipped => exact hs.once.record (by simp)
  | tuned => exact hs.once_tuned htrans ok

theorem AttemptEvent.leads_hand {t' : Transponder} (he : AttemptEvent t.frequency e false)
    (hevents : s'.events = s.events ++ [e]) (hscanned : s'.scanned = s.scanned) (hnew : s'.new = s.new)
    (ht : t'.frequency = t.frequency) : Leads (s.hand t) (s'.hand t') := by
  have hknown : ∀ g, (s'.hand t').Known g ↔ (s.hand t).Known g := he.known hevents
  refine Leads.of_sound ⟨[e],hevents.symm⟩ fun htrans hs => ⟨?_,?_,?_⟩
  · have hsearch : ClassSearch IsSameTransponder _ _ (s'.hand t').Known (s'.hand t').Tried (s'.hand t').Locked :=
      hs.search.mono hknown (fun g hg => (he.tried hevents g).mpr (.inl hg))
        (fun g hg => ((he.locked hevents g).mp hg).resolve_right (by simp))
    rw [ScanState.Search]
    simp only [ScanState.hand,hscanned,hnew,map_cons,ht] at hsearch ⊢
    exact hsearch
  · exact hevents ▸ he.once hs (htrans.mono fun g hg => (hknown g).mpr hg)
  · exact fun g hg => (hknown g).mpr (hs.listed g ((he.listed hevents g).mp hg))

theorem AttemptEvent.leads_scanned {t' : Transponder}
    (he : AttemptEvent t.frequency e ok) (hevents : s'.events = s.events ++ [e]) (hscanned : s'.scanned = s.scanned)
    (hnew : s'.new = s.new) (ht : t'.frequency = t.frequency) : Leads (s.hand t) (s'.addScanned t') := by
  have hknown : ∀ g, (s'.addScanned t').Known g ↔ (s.hand t).Known g := he.known hevents
  refine Leads.of_sound ⟨[e],hevents.symm⟩ fun htrans hs => ⟨?_,?_,?_⟩
  · have htaken := hs.search.take .refl (fun _ _ => .symm) (fun g hg => (he.tried hevents g).mpr (.inl hg))
      ((he.tried hevents t.frequency).mpr (.inr rfl))
      (fun g hg => ((he.locked hevents g).mp hg).imp_right And.left)
    rw [ScanState.Search]
    simp only [ScanState.addScanned,hscanned,hnew,map_append,map_cons,map_nil,ht]
    exact htaken.mono hknown (fun _ => id) (fun _ => id)
  · exact hevents ▸ he.once hs (htrans.mono fun g hg => (hknown g).mpr hg)
  · exact fun g hg => (hknown g).mpr (hs.listed g ((he.listed hevents g).mp hg))

def EndsLocked (s s' : ScanState) : Prop := ∃ before f, s.events <+: before ∧ s'.events = before ++ [.tuned f true]

theorem EndsLocked.of_grows {s'' : ScanState} (hgrows : s.events <+: s'.events) (h : EndsLocked s' s'') :
    EndsLocked s s'' := by
  obtain ⟨before,f,hbefore,hevents⟩ := h
  exact ⟨before,f,hgrows.trans hbefore,hevents⟩

theorem tuneToTransponder_spec (c : Config) (w : World) (t : Transponder) (s : ScanState) :
    Leads (s.hand t) (tuneToTransponder c w t s).2 ∧ (tuneToTransponder c w t s).2.new = s.new ∧
      (∃ t', (tuneToTransponder c w t s).2.scanned = s.scanned ++ [t'] ∧ t'.frequency = t.frequency) ∧
      ((tuneToTransponder c w t s).1 = true → EndsLocked s (tuneToTransponder c w t s).2) := by
  rw [tuneToTransponder]
  dsimp only
  have hdone : Leads (s.hand t) (s.hand { t with scanDone := true }) := .of_frequencies rfl rfl rfl
  obtain ⟨hf,hscanned,hnew,e,he,hevents⟩ := tuneAttempt_spec w { t with scanDone := true } s
  split_ifs with htype hok
  · exact ⟨hdone.trans (AttemptEvent.skipped.leads_scanned rfl rfl rfl rfl),rfl,⟨_,rfl,rfl⟩,
      fun h => absurd h (by simp)⟩
  · rw [hok] at he
    refine ⟨hdone.trans (he.leads_scanned hevents hscanned hnew hf),hnew,⟨_,congrArg (· ++ _) hscanned,hf⟩,fun _ => ?_⟩
    cases he
    exact ⟨s.events,t.frequency,prefix_refl _,hevents⟩
  · rw [Bool.not_eq_true] at hok
    rw [hok] at he
    obtain ⟨hf',hscanned',hnew',e',he',hevents'⟩ := tuneAttempt_spec w
      (tuneAttempt w { t with scanDone := true } s).2.1 (tuneAttempt w { t with scanDone := true } s).2.2
    refine ⟨hdone.trans ((he.leads_hand hevents hscanned hnew hf).trans
      (he'.leads_scanned hevents' hscanned' hnew' hf')),hnew'.trans hnew,
      ⟨_,congrArg (· ++ _) (hscanned'.trans hscanned),hf'.trans hf⟩,fun h => ?_⟩
    rw [h] at he'
    cases he'
    exact ⟨_,_,⟨[e],hevents.symm⟩,hevents'⟩

/-- With the last scanned transponder the loop over its other frequencies leads on, and ends with a lock if it returns 0. -/
theorem tryOthers_spec (c : Config) (w : World) (fuel : Nat) (s : ScanState) :
    Leads s (tryOthers c w fuel s).2 ∧ (tryOthers c w fuel s).2.new.length = s.new.length ∧
      ((tryOthers c w fuel s).1 = true → EndsLocked s (tryOthers c w fuel s).2) := by
  induction fuel generalizing s with
  | zero => exact ⟨Leads.refl s,rfl,fun h => absurd h (by simp [tryOthers])⟩
  | succ fuel ih =>
    rw [tryOthers]
    cases hlast : s.scanned.getLast? with
    | none => exact ⟨Leads.refl s,rfl,fun h => absurd h (by simp)⟩
    | some t =>
      dsimp only
      by_cases hothers : t.otherFrequencyFlag = false ∨ t.otherF = []
      · rw [if_pos hothers]
        exact ⟨Leads.refl s,rfl,fun h => absurd h (by simp)⟩
      · rw [if_neg hothers]
        obtain ⟨older,hscanned⟩ := List.getLast?_eq_some_iff.mp hlast
        have hdrop : s.dropScanned.scanned ++ [t] = s.scanned := by simp [ScanState.dropScanned,hscanned]
        have hp : Prepared (t.otherF.getLastD 0) s
            ((s.dropScanned.record (.looked (t.otherF.getLastD 0))).addScanned t.takeOther) := by
          refine ⟨?_,rfl,.inl rfl⟩
          rw [← hdrop,map_append]
          exact map_append
        split
        next s' h =>
          obtain ⟨hnew,hleads⟩ := findTransponder_some (fun _ => rfl) hp h
          obtain ⟨hleads',hnew',hlock⟩ := ih s'
          exact ⟨hleads.trans hleads',hnew'.trans hnew,fun h => (hlock h).of_grows hleads.grows⟩
        next h =>
          obtain ⟨htune,hnew,-,hlock⟩ := tuneToTransponder_spec c w (t.takeOther.setFrequency (t.otherF.getLastD 0))
            ((s.dropScanned.record (.looked (t.otherF.getLastD 0))).addScanned (wrongTransponder t.takeOther))
          have hleads : Leads s (((s.dropScanned.record (.looked (t.otherF.getLastD 0))).addScanned
              (wrongTransponder t.takeOther)).hand (t.takeOther.setFrequency (t.otherF.getLastD 0))) := by
            refine hp.leads_cons h rfl ?_ (List.Perm.refl _)
            rw [← hdrop,map_append]
            exact map_append
          split_ifs with hok
          · exact ⟨hleads.trans htune,congrArg List.length hnew,fun _ => (hlock hok).of_grows hleads.grows⟩
          · obtain ⟨hleads',hnew',hlock'⟩ := ih (tuneToTransponder c w
              (t.takeOther.setFrequency (t.otherF.getLastD 0))
              ((s.dropScanned.record (.looked (t.otherF.getLastD 0))).addScanned (wrongTransponder t.takeOther))).2
            exact ⟨hleads.trans (htune.trans hleads'),hnew'.trans (congrArg List.length hnew),
              fun h => (hlock' h).of_grows (hleads.trans htune).grows⟩

theorem tuneLoop_spec (c : Config) (w : World) (fuel : Nat) (s : ScanState) (hfuel : s.new.length ≤ fuel) :
    Leads s (tuneLoop c w fuel s).2 ∧
      ((tuneLoop c w fuel s).1 = true → EndsLocked s (tuneLoop c w fuel s).2) ∧
      ((tuneLoop c w fuel s).1 = false → (tuneLoop c w fuel s).2.new = []) := by
  induction fuel generalizing s with
  | zero =>
    have hnew : s.new = [] := eq_nil_of_length_eq_zero (Nat.le_zero.mp hfuel)
    exact ⟨Leads.refl s,fun h => absurd h (by simp [tuneLoop]),fun _ => hnew⟩
  | succ fuel ih =>
    rw [tuneLoop]
    split
    next hnew => exact ⟨Leads.refl s,fun h => absurd h (by simp),fun _ => hnew⟩
    next t new hnew =>
      obtain ⟨htune,hnew',-,hlock⟩ := tuneToTransponder_spec c w t { s with new := new }
      have hhand : ScanState.hand { s with new := new } t = s := by
        rw [ScanState.hand,← hnew]
      rw [hhand] at htune
      dsimp only
      split_ifs with hok hok'
      · exact ⟨htune,fun _ => hlock hok,fun h => absurd h (by simp [hok])⟩
      · obtain ⟨hothers,-,hlock'⟩ := tryOthers_spec c w t.otherF.length
          (tuneToTransponder c w t { s with new := new }).2
        exact ⟨htune.trans hothers,fun _ => (hlock' hok').of_grows htune.grows,fun h => absurd h (by simp [hok'])⟩
      · obtain ⟨hothers,hlength,-⟩ := tryOthers_spec c w t.otherF.length
          (tuneToTransponder c w t { s with new := new }).2
        have hle : new.length ≤ fuel := by simpa [hnew] using hfuel
        obtain ⟨hrest,hlock',hdone⟩ := ih (tryOthers c w t.otherF.length
          (tuneToTransponder c w t { s with new := new }).2).2 (by rwa [hlength,hnew'])
        exact ⟨htune.trans (hothers.trans hrest),fun h => (hlock' h).of_grows (htune.trans hothers).grows,hdone⟩

end Tuning

/-! ## The run -/

section Run

variable {c : Config} {w : World} {lines : List InitialLine}

theorem foldl_readLine (lines : List InitialLine) (s : ScanState) : (lines.foldl readLine s).scanned = s.scanned ∧
      (lines.foldl readLine s).new.map Transponder.frequency =
        s.new.map Transponder.frequency ++ lines.map (·.param.frequency) ∧
      (lines.foldl readLine s).events = s.events ++ lines.map (.initial ·.param.frequency) := by
  induction lines generalizing s with
  | nil => exact ⟨rfl,by simp,by simp⟩
  | cons line lines ih =>
    obtain ⟨hscanned,hnew,hevents⟩ := ih (readLine s line)
    rw [foldl_cons]
    refine ⟨hscanned,?_,?_⟩
    · rw [hnew]
      simp [readLine,allocTransponder,ScanState.record,InitialLine.fill,Transponder.frequency]
    · rw [hevents]
      simp [readLine,allocTransponder,ScanState.record]

theorem readInitial_sound (hlines : lines.Pairwise fun a b => ¬ IsSameTransponder a.param.frequency b.param.frequency) :
    (readInitial lines).Sound := by
  obtain ⟨hscanned,hnew,hevents⟩ : (readInitial lines).scanned = [] ∧
      (readInitial lines).new.map Transponder.frequency = lines.map (·.param.frequency) ∧
      (readInitial lines).events = lines.map (.initial ·.param.frequency) :=
    foldl_readLine lines ⟨[],[],0,[]⟩
  have hknown : ∀ f, (readInitial lines).Known f ↔ f ∈ lines.map (·.param.frequency) := by
    intro f
    simp [ScanState.Known,hevents]
  refine ⟨?_,?_,?_⟩
  · rw [ScanState.Search,hscanned,hnew,map_nil]
    constructor
    · exact fun a ha => (hknown a).mpr ha
    · exact fun a ha => ⟨a,(hknown a).mp ha,.refl a⟩
    · exact List.pairwise_map.mpr hlines
    · exact fun a _ b hb => absurd hb not_mem_nil
    · exact fun b hb => absurd hb not_mem_nil
    · intro a ha
      simp [ScanState.Locked,hevents] at ha
  · rw [hevents,TunedOnce,List.pairwise_map]
    exact List.pairwise_of_forall fun _ _ f g lock h => absurd h (by simp)
  · intro f hf
    simp [hevents] at hf

theorem tuneToNextTransponder_spec (c : Config) (w : World) (s : ScanState) : Leads s (tuneToNextTransponder c w s).2 ∧
      ((tuneToNextTransponder c w s).1 = true → EndsLocked s (tuneToNextTransponder c w s).2) ∧
      ((tuneToNextTransponder c w s).1 = false → (tuneToNextTransponder c w s).2.new = []) :=
  tuneLoop_spec c w s.new.length s (Nat.le_refl _)

theorem scanNetwork_leads (n : Nat) : Leads (readInitial lines) (scanNetwork c w lines n).2 ∧
      ((scanNetwork c w lines n).1 = false → (scanNetwork c w lines n).2.new = []) := by
  induction n with
  | zero =>
    obtain ⟨hleads,-,hdone⟩ := tuneToNextTransponder_spec c w (readInitial lines)
    exact ⟨hleads,hdone⟩
  | succ n ih =>
    rw [scanNetwork]
    split_ifs with hok
    · obtain ⟨hleads,-,hdone⟩ := tuneToNextTransponder_spec c w
        ((w.nits n).foldl (fun s nit => parseNit c nit s) (scanNetwork c w lines n).2)
      exact ⟨ih.1.trans ((parseNits_leads c _ _).trans hleads),hdone⟩
    · exact ih

def ScanEvent.lock : ScanEvent → Option UInt32
  | .tuned f true => some f
  | _ => none

theorem ScanEvent.lock_eq_some {e : ScanEvent} {f : UInt32} : e.lock = some f ↔ e = .tuned f true := by
  cases e with
  | tuned g lock => cases lock <;> simp [ScanEvent.lock]
  | _ => simp [ScanEvent.lock]

def locks (events : List ScanEvent) : List UInt32 := events.filterMap ScanEvent.lock

theorem TunedOnce.locks_nodup {events : List ScanEvent} (h : TunedOnce events) : (locks events).Nodup := by
  refine List.pairwise_filterMap.mpr (h.imp ?_)
  intro e e' hapart f hf g hg hfg
  exact hapart f g true (ScanEvent.lock_eq_some.mp hf) (ScanEvent.lock_eq_some.mp hg) (.inl hfg)

theorem EndsLocked.locks_lt {s s' : ScanState} (h : EndsLocked s s') :
    (locks s.events).length < (locks s'.events).length := by
  obtain ⟨before,f,hbefore,hevents⟩ := h
  have hle : (locks s.events).length ≤ (locks before).length := (hbefore.filterMap _).length_le
  have hlocks : locks s'.events = locks before ++ [f] := by
    rw [hevents,locks,filterMap_append]
    rfl
  rw [hlocks,length_append]
  exact Nat.lt_succ_of_le hle

theorem lt_length_locks (n : Nat) (h : (scanNetwork c w lines n).1 = true) :
    n < (locks (scanNetwork c w lines n).2.events).length := by
  induction n with
  | zero => exact Nat.zero_lt_of_lt ((tuneToNextTransponder_spec c w (readInitial lines)).2.1 h).locks_lt
  | succ n ih =>
    rw [scanNetwork] at h ⊢
    split_ifs at h ⊢ with hok
    · have hnits := parseNits_leads c (w.nits n) (scanNetwork c w lines n).2
      have hlt := ((tuneToNextTransponder_spec c w _).2.1 h).locks_lt
      have hle : (locks (scanNetwork c w lines n).2.events).length ≤ _ := (hnits.grows.filterMap _).length_le
      exact Nat.lt_of_le_of_lt (Nat.le_trans (ih hok) hle) hlt
    · exact absurd h hok

theorem ScanState.Consistent.of_grows {s s' : ScanState} (hgrows : s.events <+: s'.events) (h : s'.Consistent) :
    s.Consistent :=
  ⟨h.transitive.mono fun _ => ScanState.Known.mono hgrows,
    fun g f hg hf => h.heeded g f (hgrows.subset hg) (hgrows.subset hf)⟩

theorem scanNetwork_grows {m n : Nat} (hle : m ≤ n) :
    (scanNetwork c w lines m).2.events <+: (scanNetwork c w lines n).2.events := by
  induction hle with
  | refl => exact prefix_refl _
  | step _ ih =>
    apply ih.trans
    rw [scanNetwork]
    split_ifs
    · exact ((parseNits_leads c _ _).trans (tuneToNextTransponder_spec c w _).1).grows
    · exact prefix_refl _

theorem consistent_of_ended {n : Nat} (hend : (scanNetwork c w lines n).1 = false)
    (h : (scanNetwork c w lines n).2.Consistent) (m : Nat) : (scanNetwork c w lines m).2.Consistent := by
  obtain hle | hle := Nat.le_total m n
  · exact h.of_grows (scanNetwork_grows hle)
  · have hsame : scanNetwork c w lines m = scanNetwork c w lines n := by
      induction hle with
      | refl => rfl
      | step _ ih => rw [scanNetwork,ih,hend]; rfl
    rwa [hsame]

/-- As long as the frequencies tell the transponders apart, scan visits each once. -/
theorem scan_visits_once (c : Config) (w : World) (lines : List InitialLine)
    (hlines : lines.Pairwise fun a b => ¬ IsSameTransponder a.param.frequency b.param.frequency)
    (hconsistent : ∀ n, (scanNetwork c w lines n).2.Consistent) : VisitsOnce c w lines := by
  have hsound : ∀ n, (scanNetwork c w lines n).2.Sound := fun n =>
    (scanNetwork_leads n).1.keeps (fun _ => readInitial_sound hlines) (hconsistent n).transitive
  constructor
  · exact fun n => (hsound n).once
  · intro n hend g hg
    have hsearch := (hsound n).search
    rw [ScanState.Search, (scanNetwork_leads n).2 hend] at hsearch
    obtain ⟨f, hf, -, hsame⟩ := hsearch.finished (hconsistent n).transitive ((hsound n).listed g hg)
    obtain ⟨lock, hf⟩ | hf := hf
    · exact ⟨f, lock, hf, hsame⟩
    · exact absurd hsame ((hconsistent n).heeded g f hg hf)
  · by_contra hnever
    have hok : (scanNetwork c w lines UInt32.size).1 = true := by simpa using not_exists.mp hnever UInt32.size
    have hlt := lt_length_locks _ hok
    have hnodup : ((locks (scanNetwork c w lines UInt32.size).2.events).map UInt32.toFin).Nodup :=
      (hsound _).once.locks_nodup.map fun _ _ => UInt32.toFin_inj.mp
    have hle := hnodup.length_le_card
    rw [List.length_map, Fintype.card_fin] at hle
    exact absurd hlt (Nat.not_lt.mpr hle)

def satelliteEntry (b0 b1 b2 b3 : UInt8) : List UInt8 :=
  [0x00, 0x01, 0x00, 0x01, 0xf0, 0x0d, 0x43, 0x0b, b0, b1, b2, b3, 0x01, 0x92, 0x81, 0x02, 0x75, 0x00, 0x03]

def satelliteConfig : Config := ⟨.qpsk, 2⟩

def satelliteLine : InitialLine := ⟨.qpsk, ⟨10000000, 2, 27500000, 9, 0, 0, 0, 0, 0⟩, 0⟩

def satelliteWorld (entries : List UInt8) : World where
  results _ := .lock
  nits n := if n = 0 then [⟨.ofList ([0xf0, 0x00, 0xf0, 0x00] ++ entries), 4 + entries.length, 1⟩] else []

theorem scan_visits_once_two :
    VisitsOnce satelliteConfig (satelliteWorld (satelliteEntry 0x01 0x07 0x00 0x00)) [satelliteLine] := by
  apply scan_visits_once
  · exact List.pairwise_singleton _ _
  · apply consistent_of_ended (n := 2) (by decide)
    generalize hs : (scanNetwork satelliteConfig (satelliteWorld (satelliteEntry 0x01 0x07 0x00 0x00))
      [satelliteLine] 2).2 = s
    have hevents : s.events =
        [.initial 10000000, .tuned 10000000 true, .listed 10700000, .looked 10700000, .tuned 10700000 true] := by
      rw [← hs]
      decide
    have hknown : ∀ f, s.Known f → f = 10000000 ∨ f = 10700000 := by
      intro f hf
      simpa [ScanState.Known, hevents] using hf
    constructor
    · intro f g k hf hg hk hfg hgk
      obtain rfl | rfl := hknown f hf <;> obtain rfl | rfl := hknown g hg <;> obtain rfl | rfl := hknown k hk <;>
        revert hfg hgk <;> decide
    · intro g f _ hf
      simp [hevents] at hf

/-- The frequency of the first transponder wanders away from it, and it is tuned to again. -/
theorem scan_visits_twice : ¬ VisitsOnce satelliteConfig
    (satelliteWorld (satelliteEntry 0x01 0x00 0x01 0x50 ++ satelliteEntry 0x01 0x00 0x03 0x00 ++
      satelliteEntry 0x01 0x00 0x00 0x00)) [satelliteLine] := by
  intro h
  have hevents : (scanNetwork satelliteConfig (satelliteWorld (satelliteEntry 0x01 0x00 0x01 0x50 ++
      satelliteEntry 0x01 0x00 0x03 0x00 ++ satelliteEntry 0x01 0x00 0x00 0x00)) [satelliteLine] 1).2.events =
    [.initial 10000000, .tuned 10000000 true, .listed 10001500, .looked 10001500, .listed 10003000,
      .looked 10003000, .listed 10000000, .looked 10000000, .tuned 10000000 true] := by
    decide
  have honce := h.once 1
  rw [hevents, TunedOnce, List.pairwise_cons, List.pairwise_cons] at honce
  exact honce.2.1 (.tuned 10000000 true) (by decide) 10000000 10000000 true rfl rfl (.refl _)

end Run

end LinuxDvb.Scan
