import LinuxDvb.DvbCore.Net.Ule

/-!
# One pass of the decapsulation loop

What a pass of `dvb_net_ule` can do, from any state in which a pass starts: it keeps the invariant
`UleLoop.Ok`, it lowers `uleMeasure` unless it stops at the end of the cell it synchronises on, and it
stays inside the cell unless a pointer field points behind the cell.
-/

namespace LinuxDvb.Net

def UleCall.PointersInRange (c : UleCall) : Prop :=
  ∀ ts, ts < c.bufLen → ts % tsSz = 0 → c.validCell ts = true → c.pusi ts = true →
    c.pointerField ts ≠ 184

/-- `op` stays inside the cell at `ts`, and nothing wraps. -/
def UleOp.InBounds : UleOp → Prop
  | .read ts off len => ts ≤ off ∧ off + len ≤ ts + tsSz
  | .work ts fromWhere tsRemain =>
    ts ≤ fromWhere ∧ fromWhere + tsRemain = ts + tsSz ∧ tsRemain ≤ 184
  | .tsRemainSub tsRemain n => n ≤ tsRemain
  | .snduRemainSub snduRemain n => n ≤ snduRemain

def UleLoop.OpsInBounds (s : UleLoop) : Prop := ∀ op ∈ s.ops, op.InBounds

/-- `from_where` lies in the payload of the cell, `ts_remain` bytes before its end. -/
def UleLoop.InCell (s : UleLoop) : Prop :=
  s.ts + 4 ≤ s.fromWhere ∧ s.fromWhere + s.tsRemain = s.ts + tsSz

/-- Between cells no bytes are missing without an skb, and there is none while a PUSI is awaited. -/
structure DvbNetPriv.Ok (p : DvbNetPriv) : Prop where
  idle : p.uleSkb = none → p.uleSnduRemain = 0
  sync : p.needPusi = true → p.uleSkb = none

/-- Invariant at the start of a pass. A pass that goes on in a cell starts an SNDU there. -/
structure UleLoop.Ok (s : UleLoop) : Prop where
  aligned : s.ts % tsSz = 0
  priv : s.priv.Ok
  goesOn : s.newTs = false →
    s.priv.needPusi = false ∧ s.priv.uleSkb = none ∧ 2 ≤ s.tsRemain ∧ s.tsRemain < 256

def SyncsAtEnd (c : UleCall) (s : UleLoop) : Prop :=
  s.newTs = true ∧ s.priv.needPusi = true ∧ c.validCell s.ts = true ∧ c.pusi s.ts = true ∧
    (c.pointerField s.ts = 182 ∨ c.pointerField s.ts = 183)

def uleMeasure (c : UleCall) (s : UleLoop) : Nat :=
  4 * (c.bufLen - s.ts) +
    if s.newTs then if s.priv.needPusi then 300 else 301 else s.tsRemain

/-- The assumptions under which a pass from `s` stays in bounds. -/
structure InRange (c : UleCall) (s : UleLoop) : Prop where
  pointers : c.PointersInRange
  ops : s.OpsInBounds
  cell : s.newTs = false → s.InCell

/-- How a pass from `s` ends. -/
structure UlePassSpec (c : UleCall) (s : UleLoop) (f : Flow UleLoop) : Prop where
  ok : ∀ s', f = .again s' → s'.Ok
  lowers : ∀ s', f = .again s' → ¬ SyncsAtEnd c s → uleMeasure c s' < uleMeasure c s
  leaves : ∀ s', f = .leave s' → s'.priv.Ok
  ops : InRange c s → f.state.OpsInBounds
  cell : ∀ s', f = .again s' → InRange c s → s'.newTs = false → s'.InCell

/-- Where the state `s` inside a pass from `s₀` stands. -/
structure Inside (c : UleCall) (s₀ s : UleLoop) : Prop where
  ts : s.ts = s₀.ts
  newTs : s.newTs = s₀.newTs
  idle : s.priv.uleSkb = none → s.priv.uleSnduRemain = 0
  small : s.tsRemain < 256
  ops : InRange c s₀ → s.OpsInBounds
  cell : InRange c s₀ → s.InCell

structure CellOpened (c : UleCall) (s₀ s : UleLoop) : Prop extends Inside c s₀ s where
  priv : s.priv = s₀.priv
  fresh : s₀.newTs = true →
    c.validCell s₀.ts = true ∧ s.tsRemain = 184 ∧ s.fromWhere = s₀.ts + 4
  goesOn : s₀.newTs = false → s.tsRemain = s₀.tsRemain

structure Synchronised (c : UleCall) (s₀ s : UleLoop) : Prop extends Inside c s₀ s where
  needPusi : s.priv.needPusi = s₀.priv.needPusi
  uleSkb : s.priv.uleSkb = s₀.priv.uleSkb
  synced : s₀.priv.needPusi = true → s₀.newTs = true ∧ c.validCell s₀.ts = true ∧
    c.pusi s₀.ts = true ∧ c.pointerField s₀.ts ≤ 184 ∧
    s.tsRemain = subU8 184 (1 + c.pointerField s₀.ts)
  fresh : s₀.newTs = true → s₀.priv.needPusi = false → s.tsRemain = 184 ∧ s.fromWhere = s₀.ts + 4
  goesOn : s₀.newTs = false → s.tsRemain = s₀.tsRemain

structure Positioned (c : UleCall) (s₀ s : UleLoop) : Prop extends Inside c s₀ s where
  needPusi : s.priv.needPusi = false
  short : s.tsRemain < 2 → SyncsAtEnd c s₀
  goesOn : s₀.newTs = false → s.tsRemain = s₀.tsRemain ∧ s.priv.uleSkb = none

structure InHeader (c : UleCall) (s₀ s : UleLoop) : Prop extends Inside c s₀ s where
  needPusi : s.priv.needPusi = false
  uleSkb : s.priv.uleSkb = none
  goesOn : s₀.newTs = false → s.tsRemain ≤ s₀.tsRemain

structure InPayload (c : UleCall) (s₀ s : UleLoop) : Prop extends Inside c s₀ s where
  needPusi : s.priv.needPusi = false
  goesOn : s₀.newTs = false → s.tsRemain < s₀.tsRemain

theorem UleLoop.OpsInBounds.append {s s' : UleLoop} (h : s.OpsInBounds) (op : UleOp)
    (hop : op.InBounds) (hs : s'.ops = s.ops ++ [op]) : s'.OpsInBounds := by
  intro op' hmem
  rw [hs,mem_append,mem_singleton] at hmem
  rcases hmem with hmem | rfl
  · exact h op' hmem
  · exact hop

theorem UleLoop.OpsInBounds.reads {s : UleLoop} {off len : Nat} (h : s.OpsInBounds)
    (hoff : s.ts ≤ off) (hlen : off + len ≤ s.ts + tsSz) : (s.reads off len).OpsInBounds :=
  h.append (.read s.ts off len) ⟨hoff, hlen⟩ rfl

theorem UleLoop.OpsInBounds.consume {s : UleLoop} {n : Nat} (h : s.OpsInBounds)
    (hn : n ≤ s.tsRemain) : (s.consume n).OpsInBounds :=
  h.append (.tsRemainSub s.tsRemain n) hn rfl

theorem UleLoop.InCell.consume {s : UleLoop} {n : Nat} (h : s.InCell) (hn : n ≤ s.tsRemain)
    (hsmall : s.tsRemain < 256) : (s.consume n).InCell := by
  unfold InCell at h ⊢
  simp only [UleLoop.consume,subU8_of_le hn hsmall]
  omega

theorem dropSndu_ok (p : DvbNetPriv) : (dropSndu p).Ok :=
  ⟨fun _ => rfl, fun _ => rfl⟩

theorem resetUle_bridgedSndu (p : DvbNetPriv) (skb : SkBuff) : resetUle (uleBridgedSndu p skb).1 = resetUle p := by
  unfold uleBridgedSndu
  dsimp only
  split <;> rfl

theorem resetUle_handleOneUleExtension (p : DvbNetPriv) (skb : SkBuff) :
    resetUle (handleOneUleExtension p skb).1 = resetUle p := by
  unfold handleOneUleExtension uleMandatoryExtHandlers
  dsimp only
  split
  next =>
    split
    next => rfl
    next handler heq =>
      have hhandler : resetUle (handler p skb).1 = resetUle p := by
        split at heq
        · cases heq
          rfl
        · cases heq
          exact resetUle_bridgedSndu p skb
        · cases heq
      rw [← hhandler]
      split
      next => split <;> rfl
      next => rfl
  next => rfl

theorem resetUle_extensionLoop {skb : SkBuff} {fuel : Nat} {p : DvbNetPriv} {total : Int}
    {r : DvbNetPriv × Int} (h : uleExtensionLoop skb fuel p total = some r) :
    resetUle r.1 = resetUle p := by
  induction fuel generalizing p total with
  | zero => cases h
  | succ fuel ih =>
    have hone := resetUle_handleOneUleExtension p skb
    rw [uleExtensionLoop] at h
    split at h
    next =>
      cases h
      exact hone
    next =>
      split at h
      next => exact (ih h).trans hone
      next =>
        cases h
        exact hone

theorem resetUle_complete {fuel : Nat} {dev : NetDevice} {p : DvbNetPriv} {skb : SkBuff}
    {r : DvbNetPriv × List NetPacket} (h : uleComplete fuel dev p skb = some r) :
    resetUle r.1 = resetUle { p with stats := r.1.stats } := by
  have hext (skb : SkBuff) (dest : List UInt8) (h : uleExtensions fuel dev p skb dest = some r) :
      resetUle r.1 = resetUle { p with stats := r.1.stats } := by
    unfold uleExtensions handleUleExtensions at h
    split at h
    next =>
      split at h
      next => cases h
      next q heq =>
        have hloop := resetUle_extensionLoop heq
        have hq : resetUle q.1 = resetUle p := hloop
        have hstats : (resetUle q.1).stats = (resetUle p).stats := by rw [hq]
        rw [Option.some.injEq] at h
        split at h
        next =>
          cases h
          rw [hq]
          exact (congrArg (fun stats => resetUle { p with stats := stats }) hstats).symm
        next =>
          cases h
          unfold resetUle at hq ⊢
          simp_all [uleDeliver]
    next =>
      cases h
      rfl
  unfold uleComplete at h
  split at h
  next =>
    cases h
    rfl
  next => exact hext _ _ h

section Pass

variable {c : UleCall} {s₀ s : UleLoop}

theorem spec_nextCell (hwhole : c.bufLen % tsSz = 0) (hin : c.inBuffer s₀) (hok : s₀.Ok)
    (hts : s.ts = s₀.ts) (hnew : s.newTs = true) (hpriv : s.priv.Ok)
    (hops : InRange c s₀ → s.OpsInBounds) : UlePassSpec c s₀ (.again s.nextCell) := by
  have haligned := hok.aligned
  unfold UleCall.inBuffer at hin
  unfold tsSz at hwhole haligned
  constructor
  case ok =>
    rintro s' ⟨⟩
    constructor
    · simp only [UleLoop.nextCell,hts,tsSz]
      omega
    · exact hpriv
    · simp [UleLoop.nextCell,hnew]
  case lowers =>
    rintro s' ⟨⟩ -
    unfold uleMeasure
    simp only [UleLoop.nextCell,hts,hnew,tsSz,if_true]
    split <;> split <;> omega
  case leaves => rintro s' ⟨⟩
  case ops => exact hops
  case cell =>
    rintro s' ⟨⟩ - h
    simp [UleLoop.nextCell,hnew] at h

theorem spec_dropSndu (hok : s₀.Ok) (hts : s.ts = s₀.ts) (hnew : s.newTs = true)
    (hnew₀ : s₀.newTs = true) (hpusi : s₀.priv.needPusi = false)
    (hops : InRange c s₀ → s.OpsInBounds) :
    UlePassSpec c s₀ (.again { s with priv := dropSndu s.priv }) := by
  constructor
  case ok =>
    rintro s' ⟨⟩
    constructor
    · simpa only [hts] using hok.aligned
    · exact dropSndu_ok _
    · simp [hnew]
  case lowers =>
    rintro s' ⟨⟩ -
    simp [uleMeasure,hts,hnew,hnew₀,hpusi,dropSndu]
  case leaves => rintro s' ⟨⟩
  case ops => exact hops
  case cell =>
    rintro s' ⟨⟩ - h
    simp [hnew] at h

theorem uleNewCell_spec (hwhole : c.bufLen % tsSz = 0) (hin : c.inBuffer s₀) (hok : s₀.Ok) :
    (uleNewCell c s₀).Meets (CellOpened c s₀) (UlePassSpec c s₀) := by
  have hread : InRange c s₀ → (s₀.reads s₀.ts 4).OpsInBounds := by
    intro h
    exact h.ops.reads (Nat.le_refl _) (by unfold tsSz; omega)
  unfold uleNewCell
  split
  next hnew =>
    split
    next hvalid =>
      exact {
        ts := rfl
        newTs := rfl
        idle := hok.priv.idle
        small := by simp
        ops := hread
        cell := fun _ => ⟨Nat.le_refl _,rfl⟩
        priv := rfl
        fresh := fun _ => ⟨hvalid,rfl,rfl⟩
        goesOn := by simp [hnew] }
    next => exact spec_nextCell hwhole hin hok rfl hnew (dropSndu_ok _) hread
  next hnew =>
    have hfalse : s₀.newTs = false := by simpa using hnew
    exact {
      ts := rfl
      newTs := rfl
      idle := hok.priv.idle
      small := (hok.goesOn hfalse).2.2.2
      ops := InRange.ops
      cell := fun h => h.cell hfalse
      priv := rfl
      fresh := by simp [hfalse]
      goesOn := fun _ => rfl }

theorem uleSynchronise_spec (hwhole : c.bufLen % tsSz = 0) (hin : c.inBuffer s₀) (hok : s₀.Ok) (h : CellOpened c s₀ s) :
    (uleSynchronise c s).Meets
      (fun s => Synchronised c s₀ s ∧ (s₀.priv.needPusi = true → s.priv.tscc = c.cc s₀.ts))
      (UlePassSpec c s₀) := by
  have hread (n : Nat) (hn : n ≤ 4) : InRange c s₀ → (s.reads (s.ts + 1) n).OpsInBounds := by
    intro hr
    exact (h.ops hr).reads (by omega) (by unfold tsSz; omega)
  unfold uleSynchronise
  split
  next hneed =>
    have hneed₀ : s₀.priv.needPusi = true := h.priv ▸ hneed
    -- a pass that goes on in a cell does not wait for a PUSI
    have hnew : s₀.newTs = true := by
      cases hn : s₀.newTs with
      | true => rfl
      | false => simp [(hok.goesOn hn).1] at hneed₀
    obtain ⟨hvalid,hremain,hfrom⟩ := h.fresh hnew
    have hsnew : s.newTs = true := h.newTs.trans hnew
    have hpriv : s.priv.Ok := h.priv ▸ hok.priv
    split
    next hpusi =>
      dsimp only
      split
      next hgt =>
        exact spec_nextCell hwhole hin hok h.ts hsnew ⟨hpriv.idle,hpriv.sync⟩
          (hread 4 (Nat.le_refl _))
      next hle =>
        rw [h.ts] at hpusi hle ⊢
        rw [hremain] at hle
        have hinr : InRange c s₀ → c.pointerField s₀.ts ≤ 183 := by
          intro hr
          have := hr.pointers s₀.ts hin hok.aligned hvalid hpusi
          omega
        refine ⟨{
          ts := h.ts
          newTs := h.newTs
          idle := h.idle
          small := Nat.mod_lt _ (by decide)
          ops := fun hr => UleLoop.OpsInBounds.append (hread 4 (Nat.le_refl _) hr)
            (.tsRemainSub s.tsRemain (1 + c.pointerField s₀.ts))
            (by
              have := hinr hr
              simp only [UleOp.InBounds,hremain]
              omega) (by rw [h.ts]; rfl)
          cell := fun hr => by
            have := hinr hr
            simp only [UleLoop.InCell,UleLoop.consume,UleLoop.reads,h.ts,hremain,tsSz]
            rw [subU8_of_le (by omega) (by omega)]
            omega
          needPusi := by rw [← h.priv]; rfl
          uleSkb := by rw [← h.priv]; rfl
          synced := fun _ => ⟨hnew,hvalid,hpusi,by omega,by
            simp only [UleLoop.consume,UleLoop.reads,hremain]⟩
          fresh := by simp [hneed₀]
          goesOn := by simp [hnew] },fun _ => rfl⟩
    next =>
      exact spec_nextCell hwhole hin hok h.ts hsnew hpriv (hread 1 (by omega))
  next hneed =>
    have hneed₀ : s₀.priv.needPusi = false := by
      rw [← h.priv]
      simpa using hneed
    exact ⟨{ h with
      needPusi := by rw [h.priv]
      uleSkb := by rw [h.priv]
      synced := by simp [hneed₀]
      fresh := fun hnew _ => (h.fresh hnew).2
      goesOn := h.goesOn },by simp [hneed₀]⟩

theorem ulePointer_spec (hok : s₀.Ok) (h : Synchronised c s₀ s) (hnew : s₀.newTs = true) : (ulePointer c s).Meets
      (fun s => Positioned c s₀ s ∧ s.priv.uleSnduRemain ≤ 183) (UlePassSpec c s₀) := by
  have hsync := hok.priv.sync
  rw [← h.needPusi,← h.uleSkb] at hsync
  unfold ulePointer
  split
  next hneed =>
    have hidle := h.idle (hsync hneed)
    obtain ⟨-,hvalid,hpusi,hle,hremain⟩ := h.synced (h.needPusi ▸ hneed)
    refine ⟨{ h with needPusi := rfl, short := ?_, goesOn := by simp [hnew] },by simp [hidle]⟩
    intro hshort
    rw [hremain] at hshort
    unfold subU8 at hshort
    exact ⟨hnew,h.needPusi ▸ hneed,hvalid,hpusi,by omega⟩
  next hneed =>
    have hneed' : s.priv.needPusi = false := by simpa using hneed
    obtain ⟨hremain,hfrom⟩ := h.fresh hnew (h.needPusi ▸ hneed')
    have hread : InRange c s₀ → (s.reads s.fromWhere 1).OpsInBounds := by
      intro hr
      have := (h.cell hr).2
      exact (h.ops hr).reads (by rw [h.ts]; omega) (by omega)
    dsimp only
    split
    next hpointer =>
      refine ⟨{ h with
        needPusi := hneed'
        small := Nat.mod_lt _ (by decide)
        ops := ?_
        cell := ?_
        short := ?_
        goesOn := by simp [hnew] },?_⟩
      · intro hr
        exact (hread hr).consume (by simp only [UleLoop.reads]; omega)
      · intro hr
        exact UleLoop.InCell.consume (h.cell hr) (by simp only [UleLoop.reads]; omega) h.small
      · intro hshort
        simp [UleLoop.consume,UleLoop.reads,hremain,subU8] at hshort
      · simp only [UleLoop.consume,UleLoop.reads]
        omega
    next =>
      exact @spec_dropSndu c s₀ (s.reads s.fromWhere 1) hok h.ts (h.newTs.trans hnew) hnew
        (h.needPusi ▸ hneed') hread

theorem uleContinuity_spec (hok : s₀.Ok) (h : Synchronised c s₀ s)
    (hcounter : s₀.priv.needPusi = true → s.priv.tscc = c.cc s₀.ts) :
    (uleContinuity c s).Meets (Positioned c s₀) (UlePassSpec c s₀) := by
  have hread : InRange c s₀ → (s.reads (s.ts + 1) 3).OpsInBounds := by
    intro hr
    exact (h.ops hr).reads (by omega) (by unfold tsSz; omega)
  unfold uleContinuity
  split
  next hnew =>
    have hnew₀ : s₀.newTs = true := h.newTs ▸ hnew
    split
    next hcc =>
      dsimp only
      have hs' : Synchronised c s₀ { s.reads (s.ts + 1) 3 with
          priv := { s.priv with tscc := (s.priv.tscc + 1) % 16 } } := { h with ops := hread }
      split
      next hpusi =>
        apply Pass.Meets.andThen (ulePointer_spec hok hs' hnew₀)
        rintro s' ⟨hpos,hle⟩
        rw [uleFlush,if_neg (by omega)]
        exact hpos
      next hpusi =>
        -- without PUSI the pass got here without a synchronisation
        have hneed : s₀.priv.needPusi = false := by
          cases hneed : s₀.priv.needPusi with
          | false => rfl
          | true =>
            rw [h.ts] at hpusi
            exact absurd (h.synced hneed).2.2.1 hpusi
        exact { hs' with
          needPusi := h.needPusi.trans hneed
          short := fun hshort => by
            have := (h.fresh hnew₀ hneed).1
            simp only [UleLoop.reads] at hshort
            omega
          goesOn := by simp [hnew₀] }
    next hcc =>
      have hneed : s₀.priv.needPusi = false := by
        cases hneed : s₀.priv.needPusi with
        | false => rfl
        | true =>
          rw [h.ts] at hcc
          exact absurd (hcounter hneed).symm hcc
      exact @spec_dropSndu c s₀ (s.reads (s.ts + 1) 3) hok h.ts hnew hnew₀ hneed hread
  next hnew =>
    have hfalse : s₀.newTs = false := by
      rw [← h.newTs]
      simpa using hnew
    obtain ⟨hneed,hskb,hge,hlt⟩ := hok.goesOn hfalse
    have hremain := h.goesOn hfalse
    exact { h with
      needPusi := h.needPusi.trans hneed
      short := fun hshort => by omega
      goesOn := fun _ => ⟨hremain,h.uleSkb.trans hskb⟩ }

theorem Inside.reads (h : Inside c s₀ s) {n : Nat} (hn : n ≤ s.tsRemain) :
    InRange c s₀ → (s.reads s.fromWhere n).OpsInBounds := by
  intro hr
  obtain ⟨hge,heq⟩ := h.cell hr
  exact (h.ops hr).reads (by omega) (by omega)

theorem Inside.readsIf (h : Inside c s₀ s) (b : Bool) {n : Nat} (hn : b = true → n ≤ s.tsRemain) :
    InRange c s₀ → (s.readsIf b s.fromWhere n).OpsInBounds := by
  cases b with
  | true => exact h.reads (hn rfl)
  | false =>
    intro hr
    simpa [UleLoop.readsIf,UleLoop.OpsInBounds] using h.ops hr

theorem Inside.consume (h : Inside c s₀ s) {s' : UleLoop} {n : Nat} (hn : n ≤ s.tsRemain)
    (hts : s'.ts = s.ts) (hnew : s'.newTs = s.newTs) (hfrom : s'.fromWhere = s.fromWhere)
    (hremain : s'.tsRemain = s.tsRemain)
    (hidle : s'.priv.uleSkb = none → s'.priv.uleSnduRemain = 0)
    (hops : InRange c s₀ → s'.OpsInBounds) : Inside c s₀ (s'.consume n) where
  ts := hts.trans h.ts
  newTs := hnew.trans h.newTs
  idle := hidle
  small := Nat.mod_lt _ (by decide)
  ops := fun hr => (hops hr).consume (hremain ▸ hn)
  cell := fun hr => by
    apply UleLoop.InCell.consume _ (hremain ▸ hn) (hremain ▸ h.small)
    have hcell := h.cell hr
    unfold UleLoop.InCell at hcell ⊢
    rwa [hts,hfrom,hremain]

theorem tsRemain_consume {n : Nat} (hn : n ≤ s.tsRemain) (hsmall : s.tsRemain < 256) :
    (s.consume n).tsRemain = s.tsRemain - n :=
  subU8_of_le hn hsmall

theorem uleLength_spec (hwhole : c.bufLen % tsSz = 0) (hin : c.inBuffer s₀) (hok : s₀.Ok)
    (h : Positioned c s₀ s) (hskb : s.priv.uleSkb = none) :
    (uleLength c s).Meets (InHeader c s₀) (UlePassSpec c s₀) := by
  unfold uleLength
  split
  next hshort =>
    -- less than two bytes are left: the pass has just synchronised on this cell
    have hsyncs := h.short hshort
    have hnew : s.newTs = true := h.newTs.trans hsyncs.1
    constructor
    case ok =>
      rintro s' ⟨⟩
      exact ⟨by simpa only [h.ts] using hok.aligned,⟨h.idle,fun _ => hskb⟩,by simp [hnew]⟩
    case lowers => exact fun _ _ hnot => absurd hsyncs hnot
    case leaves => rintro s' ⟨⟩
    case ops => exact h.ops
    case cell =>
      rintro s' ⟨⟩ - hfalse
      simp [hnew] at hfalse
  next hlong =>
    have hread := h.reads (Nat.not_lt.mp hlong)
    split
    next hlen =>
      dsimp only
      split
      next => exact spec_nextCell hwhole hin hok h.ts rfl ⟨h.idle,fun _ => hskb⟩ hread
      next =>
        refine ⟨h.consume (Nat.not_lt.mp hlong) rfl rfl rfl rfl h.idle hread,h.needPusi,hskb,?_⟩
        intro hfalse
        have hsub : subU8 s.tsRemain 2 = s.tsRemain - 2 := subU8_of_le (Nat.not_lt.mp hlong) h.small
        have := (h.goesOn hfalse).1
        exact Nat.le_trans (Nat.le_of_eq hsub) (by omega)
    next hlen =>
      exact { h with uleSkb := hskb, goesOn := fun hfalse => Nat.le_of_eq (h.goesOn hfalse).1 }

theorem uleType_spec (hwhole : c.bufLen % tsSz = 0) (hin : c.inBuffer s₀) (hok : s₀.Ok) (h : InHeader c s₀ s) :
    (uleType c s).Meets
      (fun s => InHeader c s₀ s ∧ (s₀.newTs = false → s.tsRemain < s₀.tsRemain))
      (UlePassSpec c s₀) := by
  have hpriv : s.priv.Ok := ⟨h.idle,fun _ => h.uleSkb⟩
  unfold uleType
  split
  next => exact spec_nextCell hwhole hin hok h.ts rfl hpriv h.ops
  next hzero =>
    have hread := h.reads (Nat.one_le_iff_ne_zero.mpr hzero)
    split
    next hone =>
      exact spec_nextCell hwhole hin hok h.ts rfl ⟨h.idle,fun _ => h.uleSkb⟩
        fun hr => (hread hr).consume (Nat.one_le_iff_ne_zero.mpr hzero)
    next hone =>
      -- the type, or what is left of it, takes at least one byte
      have hconsume (s' : UleLoop) (n : Nat) (hn : 1 ≤ n) (hn2 : n ≤ 2) (hts : s'.ts = s.ts)
          (hnew : s'.newTs = s.newTs) (hfrom : s'.fromWhere = s.fromWhere)
          (hremain : s'.tsRemain = s.tsRemain) (hneed : s'.priv.needPusi = false)
          (hskb : s'.priv.uleSkb = none)
          (hsndu : s'.priv.uleSnduRemain = s.priv.uleSnduRemain)
          (hops : InRange c s₀ → s'.OpsInBounds) :
          InHeader c s₀ (s'.consume n) ∧
            (s₀.newTs = false → (s'.consume n).tsRemain < s₀.tsRemain) := by
        have hlt : s₀.newTs = false → (s'.consume n).tsRemain < s₀.tsRemain := by
          intro hfalse
          have := h.goesOn hfalse
          have := h.small
          rw [tsRemain_consume (by omega) (by omega)]
          omega
        refine ⟨⟨h.consume (by omega) hts hnew hfrom hremain ?_ hops,hneed,hskb,
          fun hfalse => Nat.le_of_lt (hlt hfalse)⟩,hlt⟩
        intro _
        rw [hsndu]
        exact h.idle h.uleSkb
      split
      next =>
        exact hconsume _ 1 (by omega) (by omega) rfl rfl rfl rfl h.needPusi h.uleSkb rfl hread
      next =>
        exact hconsume _ 2 (by omega) (by omega) rfl rfl rfl rfl h.needPusi h.uleSkb rfl
          (h.reads (by omega))

theorem uleAlloc_spec (h : InHeader c s₀ s) (hlt : s₀.newTs = false → s.tsRemain < s₀.tsRemain) :
    (uleAlloc c s).Meets (InPayload c s₀) (UlePassSpec c s₀) := by
  unfold uleAlloc
  split
  next =>
    constructor
    case ok => rintro s' ⟨⟩
    case lowers => rintro s' ⟨⟩
    case leaves =>
      rintro s' ⟨⟩
      exact ⟨h.idle,fun _ => h.uleSkb⟩
    case ops => exact h.ops
    case cell => rintro s' ⟨⟩
  next =>
    exact { h with
      idle := fun hnone => by simp at hnone
      needPusi := h.needPusi
      goesOn := hlt }

theorem uleHeader_spec (hwhole : c.bufLen % tsSz = 0) (hin : c.inBuffer s₀) (hok : s₀.Ok)
    (h : Positioned c s₀ s) : (uleHeader c s).Meets (InPayload c s₀) (UlePassSpec c s₀) := by
  unfold uleHeader
  split
  next hnone =>
    have hskb : s.priv.uleSkb = none := by simpa using hnone
    apply Pass.Meets.andThen
    · apply Pass.Meets.andThen (uleLength_spec hwhole hin hok h hskb)
      intro s' hs'
      exact uleType_spec hwhole hin hok hs'
    · rintro s' ⟨hs',hlt⟩
      exact uleAlloc_spec hs' hlt
  next hsome =>
    refine { h with goesOn := ?_ }
    intro hfalse
    exact absurd (h.goesOn hfalse).2 (by simpa using hsome)

theorem uleCopy_spec (h : InPayload c s₀ s) : InPayload c s₀ (uleCopy c s) ∧
      ((uleCopy c s).priv.uleSnduRemain = 0 ∨ (uleCopy c s).tsRemain = 0) := by
  have hmin := Nat.min_le_right s.priv.uleSnduRemain s.tsRemain
  have hremain : (uleCopy c s).tsRemain = s.tsRemain - min s.priv.uleSnduRemain s.tsRemain :=
    subU8_of_le hmin h.small
  constructor
  · refine ⟨h.consume hmin rfl rfl rfl rfl ?_ ?_,h.needPusi,?_⟩
    · intro hnone
      have hskb : s.priv.uleSkb = none := by simpa using hnone
      simp [h.idle hskb]
    · intro hr op hop
      simp only [mem_append,mem_cons,not_mem_nil,or_false] at hop
      rcases hop with hop | rfl | rfl
      · exact h.ops hr op hop
      · obtain ⟨hge,heq⟩ := h.cell hr
        exact ⟨by omega,by omega⟩
      · exact Nat.min_le_left _ _
    · intro hfalse
      have := h.goesOn hfalse
      exact hremain ▸ (by omega)
  · rw [hremain]
    simp only [uleCopy,UleLoop.consume]
    omega

theorem uleFinish_spec {fuel : Nat} {dev : NetDevice} (h : InPayload c s₀ s)
    (hdone : s.priv.uleSnduRemain = 0 ∨ s.tsRemain = 0) :
    (uleFinish fuel dev s).Meets
      (fun s => InPayload c s₀ s ∧ (s.priv.uleSkb = none ∨ s.tsRemain = 0))
      (UlePassSpec c s₀) := by
  unfold uleFinish
  split
  next hnone => exact ⟨h,.inl hnone⟩
  next skb hskb =>
    split
    next hzero =>
      dsimp only
      have hshown := h.readsIf (!uleCrcOk s.priv skb && s.tsRemain > 2) fun hlong =>
        (by simp at hlong; omega : 2 ≤ s.tsRemain)
      cases hcomplete : uleComplete fuel dev s.priv skb with
      | none =>
        constructor
        case ok => rintro s' ⟨⟩
        case lowers => rintro s' ⟨⟩
        case leaves => rintro s' ⟨⟩
        case ops => exact hshown
        case cell => rintro s' ⟨⟩
      | some r =>
        have hreset := resetUle_complete hcomplete
        have hneed : (resetUle r.1).needPusi = s.priv.needPusi := by rw [hreset]; rfl
        exact ⟨{ h with
          idle := fun _ => rfl
          ops := hshown
          cell := h.cell
          needPusi := hneed.trans h.needPusi
          goesOn := h.goesOn },.inl rfl⟩
    next hpos => exact ⟨h,.inr (hdone.resolve_left hpos)⟩

theorem uleNext_spec (hwhole : c.bufLen % tsSz = 0) (hin : c.inBuffer s₀) (hok : s₀.Ok)
    (h : InPayload c s₀ s) (hdone : s.priv.uleSkb = none ∨ s.tsRemain = 0) :
    UlePassSpec c s₀ (.again (uleNext c s)) := by
  have hread := h.readsIf (s.tsRemain ≥ 2) (fun hlong => by simpa using hlong)
  have hsmall := h.small
  unfold uleNext
  dsimp only
  split
  next hmore =>
    have hskb : s.priv.uleSkb = none := hdone.resolve_right (by omega)
    constructor
    case ok =>
      rintro s' ⟨⟩
      exact ⟨h.ts ▸ hok.aligned,⟨fun _ => h.idle hskb,fun _ => rfl⟩,fun _ => ⟨h.needPusi,rfl,hmore.1,hsmall⟩⟩
    case lowers =>
      rintro s' ⟨⟩ -
      have hgoes := h.goesOn
      simp only [uleMeasure,UleLoop.readsIf,h.ts]
      cases hnew : s₀.newTs with
      | true =>
        simp only [Bool.false_eq_true,if_false,if_true]
        split <;> omega
      | false =>
        simp only [Bool.false_eq_true,if_false]
        have := hgoes hnew
        omega
    case leaves => rintro s' ⟨⟩
    case ops => exact hread
    case cell =>
      rintro s' ⟨⟩ hr -
      exact h.cell hr
  next =>
    apply spec_nextCell hwhole hin hok
    · exact h.ts
    · rfl
    · split
      next hnone =>
        have hskb : s.priv.uleSkb = none := by simpa using hnone
        exact ⟨fun _ => h.idle hskb,fun _ => hskb⟩
      next =>
        exact ⟨h.idle,fun hneed => by simp [h.needPusi] at hneed⟩
    · exact hread

theorem ulePayload_spec (hwhole : c.bufLen % tsSz = 0) (hin : c.inBuffer s₀) (hok : s₀.Ok) (h : Positioned c s₀ s) :
    (ulePayload c s).Meets
      (fun s => InPayload c s₀ s ∧ (s.priv.uleSnduRemain = 0 ∨ s.tsRemain = 0))
      (UlePassSpec c s₀) := by
  have hwork : Positioned c s₀ { s with ops := s.ops ++ [.work s.ts s.fromWhere s.tsRemain] } := by
    refine { h with ops := ?_ }
    intro hr
    obtain ⟨hge,heq⟩ := h.cell hr
    apply (h.ops hr).append _ _ rfl
    simp only [UleOp.InBounds,tsSz] at heq ⊢
    omega
  apply Pass.Meets.andThen (uleHeader_spec hwhole hin hok hwork)
  intro s' hs'
  exact uleCopy_spec hs'

theorem ulePass_spec {fuel : Nat} {dev : NetDevice} (hwhole : c.bufLen % tsSz = 0)
    (hin : c.inBuffer s₀) (hok : s₀.Ok) : UlePassSpec c s₀ (ulePass dev c fuel s₀) := by
  have hreceive : (uleReceive c s₀).Meets
      (fun s => InPayload c s₀ s ∧ (s.priv.uleSnduRemain = 0 ∨ s.tsRemain = 0))
      (UlePassSpec c s₀) := by
    apply Pass.Meets.andThen
    · apply Pass.Meets.andThen
      · apply Pass.Meets.andThen (uleNewCell_spec hwhole hin hok)
        intro s hs
        exact uleSynchronise_spec hwhole hin hok hs
      · rintro s ⟨hs,hcounter⟩
        exact uleContinuity_spec hok hs hcounter
    · intro s hs
      exact ulePayload_spec hwhole hin hok hs
  apply Pass.Meets.flow
  apply Pass.Meets.andThen
  · apply Pass.Meets.andThen hreceive
    rintro s ⟨hs,hdone⟩
    exact uleFinish_spec hs hdone
  · rintro s ⟨hs,hdone⟩
    exact uleNext_spec hwhole hin hok hs hdone

end Pass

end LinuxDvb.Net
