import LinuxDvb.DvbCore.CaEn50221.Basic
import LinuxDvb.Framework.Loop

/-!
# Writing to a CAM

`dvb_ca_en50221_link_init` negotiates the size of the link buffer, and `dvb_ca_en50221_io_write` cuts a message into
fragments of at most that size.
-/

namespace LinuxDvb.CaEn50221

/-- What the registers of a CAM do with a buffer that is written to them. -/
inductive CamWrite where
  | accepted
  /-- The WE bit is set at the end. -/
  | writeError
  /-- Some access fails, or the interface is not free. -/
  | refused (status : Int) (neg : status < 0)

def dvbCaEn50221WriteData (slot : DvbCaSlot) (cam : CamWrite) (buf : List UInt8) : DvbCaSlot × Int :=
  if buf.length > slot.linkBufSize then (slot, errInval)
  else
    match cam with
    | .accepted => (slot, buf.length)
    | .writeError => ({ slot with slotState := .linkinit }, errIo)
    | .refused status _ => (slot, status)

/-- What the operations return in `dvb_ca_en50221_link_init`, in their order. `readData` is the result of
reading the size into `buf`. -/
structure LinkInitIo where
  commandSr : Int
  waitDa : Int
  readData : Int
  buf : UInt8 × UInt8
  commandRead : Int
  commandSw : Int
  waitFr : Int
  writeData : CamWrite
  commandWritten : Int

def LinkInitIo.reported (io : LinkInitIo) : Nat := io.buf.1.toNat * 256 + io.buf.2.toNat

def dvbCaEn50221LinkInit (slot : DvbCaSlot) (io : LinkInitIo) : DvbCaSlot × Int :=
  -- set temporarily, for reading the size
  let slot := { slot with linkBufSize := 2 }
  if io.commandSr ≠ 0 then (slot, io.commandSr)
  else if io.waitDa ≠ 0 then (slot, io.waitDa)
  else if io.readData ≠ 2 then (slot, errIo)
  else if io.commandRead ≠ 0 then (slot, io.commandRead)
  else
    let bufSize := if io.reported > hostLinkBufSize then hostLinkBufSize else io.reported
    let slot := { slot with linkBufSize := bufSize }
    if io.commandSw ≠ 0 then (slot, io.commandSw)
    else if io.waitFr ≠ 0 then (slot, io.waitFr)
    else
      let r := dvbCaEn50221WriteData slot io.writeData
        [UInt8.ofNat (bufSize / 256), UInt8.ofNat bufSize]
      if r.2 ≠ 2 then (r.1, errIo) else (r.1, io.commandWritten)

/-- An attempt to write a fragment: whether the slot is still running, and what the CAM does. -/
structure WriteAttempt where
  running : Bool
  cam : CamWrite

/-- What happens to one fragment: the number of bytes that `copy_from_user` cannot copy, and the attempts
that are made until the time is up. -/
structure WriteTurn where
  uncopied : Nat
  attempts : List WriteAttempt

/-- A call of `dvb_ca_en50221_io_write` behind its checks. -/
structure IoWrite where
  slot : DvbCaSlot
  connectionId : UInt8
  buf : List UInt8
  turn : Nat → WriteTurn

/-- Local variables of `dvb_ca_en50221_io_write`. `turns` counts the fragments, `passed` holds the buffers
given to `dvb_ca_en50221_write_data`, and `accepted` those that it wrote. -/
structure WriteLoop where
  fragpos : Nat
  turns : Nat
  passed : List (List UInt8)
  accepted : List (List UInt8)
  status : Int

namespace IoWrite

/-- The length of the fragment at `fragpos`; the comparison is one of `size_t`. -/
def fraglen (w : IoWrite) (fragpos : Nat) : Int :=
  let fraglen : Int := w.slot.linkBufSize - 2
  if (sizeSub w.buf.length fragpos : Int) < fraglen % (sizeModulus : Int) then
    sizeSub w.buf.length fragpos
  else fraglen

def fragbuf (w : IoWrite) (fragpos : Nat) : List UInt8 :=
  w.connectionId :: (if fragpos + w.fraglen fragpos < w.buf.length then 0x80 else 0) ::
    (w.buf.drop fragpos).take (w.fraglen fragpos).toNat

end IoWrite

/-- The loop until the timeout: how often the fragment is passed on, and the error that ends the call. -/
def writeAttempts (slot : DvbCaSlot) (fragbuf : List UInt8) : List WriteAttempt → Nat × Option Int
  | [] => (0, some errIo)
  | attempt :: attempts =>
    if !attempt.running then (0, some errIo)
    else
      let status := (dvbCaEn50221WriteData slot attempt.cam fragbuf).2
      if status = fragbuf.length then (1, none)
      else if status ≠ errAgain then (1, some status)
      else
        let r := writeAttempts slot fragbuf attempts
        (r.1 + 1, r.2)

def writePass (w : IoWrite) (_ : Nat) (s : WriteLoop) : Flow WriteLoop :=
  let turn := w.turn s.turns
  let fragbuf := w.fragbuf s.fragpos
  let uncopied := min turn.uncopied (w.fraglen s.fragpos).toNat
  if uncopied ≠ 0 then .leave { s with status := uncopied }
  else
    let r := writeAttempts w.slot fragbuf turn.attempts
    let s := { s with turns := s.turns + 1, passed := s.passed ++ List.replicate r.1 fragbuf }
    match r.2 with
    | some status => .leave { s with status := status }
    | none => .again { s with
        fragpos := s.fragpos + (w.fraglen s.fragpos).toNat
        accepted := s.accepted ++ [fragbuf] }

/-- The loop condition `fragpos < count`. -/
def IoWrite.unwritten (w : IoWrite) (s : WriteLoop) : Prop := s.fragpos < w.buf.length

instance (w : IoWrite) : DecidablePred w.unwritten := fun s => Nat.decLt s.fragpos w.buf.length

def WriteLoop.start (status : Int) : WriteLoop :=
  { fragpos := 0, turns := 0, passed := [], accepted := [], status := status }

/-- `dvb_ca_en50221_io_write`: the status it returns, and what it passed on. The slot is one that the
interface has. -/
def dvbCaEn50221IoWrite (fuel : Nat) (ca : DvbCaPrivate) (turn : Nat → WriteTurn) :
    List UInt8 → Option WriteLoop
  | slot :: connectionId :: buf =>
    match ca.slotInfo[slot.toNat]? with
    | none => some (.start errInval)
    | some info =>
      if info.slotState ≠ .running then some (.start errInval)
      else
        let w : IoWrite := { slot := info, connectionId := connectionId, buf := buf, turn := turn }
        runLoop w.unwritten (writePass w) fuel (.start (buf.length + 2))
  | _ => some (.start errInval)

def payloads (frags : List (List UInt8)) : List UInt8 := (frags.map (List.drop 2)).flatten

/-- What a call does that fragments the message as it should. A call that returns its full count has
written the whole message; a call that fails has written the first part of it. -/
structure Fragmented (size : Nat) (connectionId : UInt8) (buf : List UInt8) (r : WriteLoop) : Prop where
  fits : ∀ f ∈ r.passed, 3 ≤ f.length ∧ f.length ≤ size ∧ f.length ≤ hostLinkBufSize ∧
    f.head? = some connectionId
  /-- Only the next fragment is passed on. -/
  next : ∀ f ∈ r.passed, f ∈ r.accepted ∨ payloads (r.accepted ++ [f]) <+: buf
  concat : payloads r.accepted <+: buf ∧ (r.status = buf.length + 2 → payloads r.accepted = buf)
  /-- The more bit is set on all but the last one. -/
  more : ∀ k f, r.accepted[k]? = some f →
    f[1]? = some (if k + 1 = r.accepted.length ∧ payloads r.accepted = buf then 0 else 0x80)

theorem linkInit_size {slot slot' : DvbCaSlot} {io : LinkInitIo} (h : dvbCaEn50221LinkInit slot io = (slot', 0)) :
    slot'.linkBufSize = min io.reported hostLinkBufSize ∧ 2 ≤ slot'.linkBufSize := by
  have hmin : (if io.reported > hostLinkBufSize then hostLinkBufSize else io.reported) =
      min io.reported hostLinkBufSize := by
    rw [Nat.min_def]
    split <;> split <;> omega
  unfold dvbCaEn50221LinkInit at h
  simp only [hmin] at h
  repeat' split at h
  all_goals
    simp only [Prod.mk.injEq] at h
    obtain ⟨rfl,hret⟩ := h
  case isFalse.isFalse.isFalse.isFalse.isFalse.isFalse.isFalse hwritten =>
    unfold dvbCaEn50221WriteData at hwritten ⊢
    simp only [length_cons,length_nil] at hwritten ⊢
    by_cases hlarge : 2 > min io.reported hostLinkBufSize
    · simp [hlarge,errInval] at hwritten
    · rw [if_neg hlarge] at hwritten ⊢
      cases hcam : io.writeData with
      | accepted => exact ⟨rfl,Nat.not_lt.mp hlarge⟩
      | writeError => exact ⟨rfl,Nat.not_lt.mp hlarge⟩
      | refused status neg => exact ⟨rfl,Nat.not_lt.mp hlarge⟩
  all_goals contradiction

section Loop

variable {w : IoWrite}

theorem fraglen_eq {fragpos : Nat} (hsize : 2 ≤ w.slot.linkBufSize)
    (hhost : w.slot.linkBufSize ≤ hostLinkBufSize) (hpos : fragpos ≤ w.buf.length)
    (hcount : w.buf.length < 2 ^ 31) :
    w.fraglen fragpos = (min (w.buf.length - fragpos) (w.slot.linkBufSize - 2) : Nat) := by
  have hmod : ((w.slot.linkBufSize : Int) - 2) % (sizeModulus : Int) = w.slot.linkBufSize - 2 := by
    unfold hostLinkBufSize at hhost
    exact Int.emod_eq_of_lt (by omega) (by unfold sizeModulus; omega)
  have hsub : sizeSub w.buf.length fragpos = w.buf.length - fragpos :=
    sizeSub_of_le hpos (by unfold sizeModulus; omega)
  unfold IoWrite.fraglen
  simp only [hmod,hsub]
  split <;> omega

theorem writeData_status (slot : DvbCaSlot) (cam : CamWrite) (buf : List UInt8) :
    (dvbCaEn50221WriteData slot cam buf).2 = buf.length ∨ (dvbCaEn50221WriteData slot cam buf).2 < 0 := by
  unfold dvbCaEn50221WriteData
  split
  · exact .inr (show errInval < 0 by decide)
  · cases cam with
    | accepted => exact .inl rfl
    | writeError => exact .inr (show errIo < 0 by decide)
    | refused status neg => exact .inr neg

theorem attempts_status {slot : DvbCaSlot} {fragbuf : List UInt8} {attempts : List WriteAttempt}
    {status : Int} (h : (writeAttempts slot fragbuf attempts).2 = some status) : status < 0 := by
  induction attempts with
  | nil =>
    cases h
    decide
  | cons attempt attempts ih =>
    unfold writeAttempts at h
    split at h
    · cases h
      decide
    · dsimp only at h
      split at h
      · cases h
      next hne =>
        split at h
        · cases h
          exact (writeData_status slot attempt.cam fragbuf).resolve_left hne
        · exact ih h

structure WriteInv (w : IoWrite) (s : WriteLoop) : Prop where
  fragpos : s.fragpos ≤ w.buf.length
  accepted : payloads s.accepted = w.buf.take s.fragpos
  passed : ∀ f ∈ s.passed, f ∈ s.accepted
  fits : ∀ f ∈ s.accepted, 3 ≤ f.length ∧ f.length ≤ w.slot.linkBufSize ∧
    f.length ≤ hostLinkBufSize ∧ f.head? = some w.connectionId
  more : ∀ k f, s.accepted[k]? = some f →
    f[1]? = some (if k + 1 = s.accepted.length ∧ s.fragpos = w.buf.length then 0 else 0x80)
  status : s.status = w.buf.length + 2

theorem start_inv (w : IoWrite) : WriteInv w (.start (w.buf.length + 2)) where
  fragpos := Nat.zero_le _
  accepted := rfl
  passed := by simp [WriteLoop.start]
  fits := by simp [WriteLoop.start]
  more := by simp [WriteLoop.start]
  status := rfl

theorem payloads_append (fs gs : List (List UInt8)) : payloads (fs ++ gs) = payloads fs ++ payloads gs := by
  simp [payloads]

section Step

variable {s : WriteLoop} (hsize : 3 ≤ w.slot.linkBufSize)
  (hhost : w.slot.linkBufSize ≤ hostLinkBufSize) (hcount : w.buf.length < 2 ^ 31)

include hsize hhost hcount

theorem fragbuf_spec (hs : s.fragpos < w.buf.length) :
    ∃ n : Nat, w.fraglen s.fragpos = n ∧ 0 < n ∧ s.fragpos + n ≤ w.buf.length ∧
      n + 2 ≤ w.slot.linkBufSize ∧
      w.fragbuf s.fragpos = w.connectionId :: (if s.fragpos + n = w.buf.length then 0 else 0x80) ::
        (w.buf.drop s.fragpos).take n := by
  have hlen := @fraglen_eq w s.fragpos (by omega) hhost (by omega) hcount
  refine ⟨_,hlen,by omega,by omega,by omega,?_⟩
  unfold IoWrite.fragbuf
  rw [hlen,Int.toNat_natCast]
  congr 2
  split <;> split <;> first | rfl | omega

theorem fragbuf_fits (hs : s.fragpos < w.buf.length) :
    3 ≤ (w.fragbuf s.fragpos).length ∧ (w.fragbuf s.fragpos).length ≤ w.slot.linkBufSize ∧
      (w.fragbuf s.fragpos).length ≤ hostLinkBufSize ∧
      (w.fragbuf s.fragpos).head? = some w.connectionId := by
  obtain ⟨n,-,hpos,hle,hroom,hfrag⟩ := fragbuf_spec hsize hhost hcount hs
  have hlength : (w.fragbuf s.fragpos).length = n + 2 := by
    rw [hfrag]
    simp only [length_cons,length_take,length_drop]
    omega
  rw [hlength,hfrag]
  exact ⟨by omega,hroom,by omega,rfl⟩

theorem payloads_next (hs : s.fragpos < w.buf.length) (hinv : WriteInv w s) :
    payloads (s.accepted ++ [w.fragbuf s.fragpos]) =
      w.buf.take (s.fragpos + (w.fraglen s.fragpos).toNat) := by
  obtain ⟨n,hlen,-,-,-,hfrag⟩ := fragbuf_spec hsize hhost hcount hs
  rw [payloads_append,hinv.accepted,hlen,Int.toNat_natCast,take_add,hfrag]
  simp [payloads]

theorem inv_written (hs : s.fragpos < w.buf.length) (hinv : WriteInv w s) (passes : Nat) : WriteInv w { s with
      turns := s.turns + 1
      passed := s.passed ++ List.replicate passes (w.fragbuf s.fragpos)
      fragpos := s.fragpos + (w.fraglen s.fragpos).toNat
      accepted := s.accepted ++ [w.fragbuf s.fragpos] } := by
  obtain ⟨n,hlen,hpos,hle,hroom,hfrag⟩ := fragbuf_spec hsize hhost hcount hs
  have hn : (w.fraglen s.fragpos).toNat = n := by rw [hlen,Int.toNat_natCast]
  constructor
  case fragpos =>
    simp only [hn]
    exact hle
  case accepted => exact payloads_next hsize hhost hcount hs hinv
  case passed =>
    intro f hf
    rcases mem_append.mp hf with hf | hf
    · exact mem_append_left _ (hinv.passed f hf)
    · rw [eq_of_mem_replicate hf]
      exact mem_append_right _ (mem_singleton_self _)
  case fits =>
    intro f hf
    rcases mem_append.mp hf with hf | hf
    · exact hinv.fits f hf
    · rw [mem_singleton.mp hf]
      exact fragbuf_fits hsize hhost hcount hs
  case more =>
    intro k f hk
    simp only [hn,length_append,length_cons,length_nil]
    by_cases hlast : k < s.accepted.length
    · rw [getElem?_append_left hlast] at hk
      rw [hinv.more k f hk,if_neg (by omega),if_neg (by omega)]
    · rw [List.getElem?_append_right (by omega)] at hk
      rw [List.getElem?_singleton,Option.ite_none_right_eq_some,Option.some.injEq] at hk
      obtain ⟨hzero,rfl⟩ := hk
      rw [hfrag]
      simp only [getElem?_cons_succ,getElem?_cons_zero,Option.some.injEq]
      split <;> split <;> first | rfl | omega
  case status => exact hinv.status

theorem fragmented_of_failed (hs : s.fragpos < w.buf.length) (hinv : WriteInv w s) {status : Int}
    (hstatus : status ≠ w.buf.length + 2) {turns passes : Nat} :
    Fragmented w.slot.linkBufSize w.connectionId w.buf { s with
      turns := turns
      passed := s.passed ++ List.replicate passes (w.fragbuf s.fragpos)
      status := status } := by
  have hne : payloads s.accepted ≠ w.buf := by
    intro heq
    have hlen := congrArg List.length (heq.symm.trans hinv.accepted)
    rw [length_take] at hlen
    omega
  constructor
  case fits =>
    intro f hf
    rcases mem_append.mp hf with hf | hf
    · exact hinv.fits f (hinv.passed f hf)
    · rw [eq_of_mem_replicate hf]
      exact fragbuf_fits hsize hhost hcount hs
  case next =>
    intro f hf
    rcases mem_append.mp hf with hf | hf
    · exact .inl (hinv.passed f hf)
    · right
      rw [eq_of_mem_replicate hf]
      change payloads (s.accepted ++ [w.fragbuf s.fragpos]) <+: w.buf
      rw [payloads_next hsize hhost hcount hs hinv]
      exact List.take_prefix _ _
  case concat =>
    constructor
    · rw [hinv.accepted]
      exact List.take_prefix _ _
    · exact fun h => absurd h hstatus
  case more =>
    intro k f hk
    rw [hinv.more k f hk,if_neg (by omega),if_neg (fun h => hne h.2)]

theorem writePass_cases (fuel : Nat) (hs : w.unwritten s) (hinv : WriteInv w s) :
    (∃ s', writePass w fuel s = .again s' ∧ WriteInv w s' ∧ s.fragpos < s'.fragpos) ∨
      ∃ r, writePass w fuel s = .leave r ∧ Fragmented w.slot.linkBufSize w.connectionId w.buf r := by
  obtain ⟨n,hlen,hpos,hle,-,-⟩ := fragbuf_spec hsize hhost hcount hs
  have hn : (w.fraglen s.fragpos).toNat = n := by rw [hlen,Int.toNat_natCast]
  unfold writePass
  dsimp only
  split
  · right
    refine ⟨_,rfl,?_⟩
    have hfailed := @fragmented_of_failed w s hsize hhost hcount hs hinv
      (min (w.turn s.turns).uncopied (w.fraglen s.fragpos).toNat : Nat) (by omega) s.turns 0
    rwa [List.replicate_zero,append_nil] at hfailed
  · cases hr : (writeAttempts w.slot (w.fragbuf s.fragpos) (w.turn s.turns).attempts).2 with
    | some status =>
      have hneg := attempts_status hr
      exact .inr ⟨_,rfl,fragmented_of_failed hsize hhost hcount hs hinv (by omega)⟩
    | none =>
      refine .inl ⟨_,rfl,inv_written hsize hhost hcount hs hinv _,?_⟩
      simp only [hn]
      omega

theorem inv_of_again {fuel : Nat} {s' : WriteLoop} (hs : w.unwritten s) (hinv : WriteInv w s)
    (hagain : writePass w fuel s = .again s') : WriteInv w s' ∧ s.fragpos < s'.fragpos := by
  rcases writePass_cases hsize hhost hcount fuel hs hinv with ⟨t,ht,hinv',hlt⟩ | ⟨r,hleave,-⟩
  · rw [hagain,Flow.again.injEq] at ht
    exact ht ▸ ⟨hinv',hlt⟩
  · rw [hagain] at hleave
    cases hleave

theorem fragmented_of_leave {fuel : Nat} {r : WriteLoop} (hs : w.unwritten s) (hinv : WriteInv w s)
    (hleave : writePass w fuel s = .leave r) :
    Fragmented w.slot.linkBufSize w.connectionId w.buf r := by
  rcases writePass_cases hsize hhost hcount fuel hs hinv with ⟨t,hagain,-⟩ | ⟨r',hr',hfrag⟩
  · rw [hagain] at hleave
    cases hleave
  · rw [hleave,Flow.leave.injEq] at hr'
    exact hr' ▸ hfrag

omit hsize hhost hcount in
theorem fragmented_of_done (hs : ¬ w.unwritten s) (hinv : WriteInv w s) :
    Fragmented w.slot.linkBufSize w.connectionId w.buf s := by
  have hdone : s.fragpos = w.buf.length := by
    have := hinv.fragpos
    unfold IoWrite.unwritten at hs
    omega
  have hall : payloads s.accepted = w.buf := by rw [hinv.accepted,hdone,List.take_length]
  constructor
  case fits => exact fun f hf => hinv.fits f (hinv.passed f hf)
  case next => exact fun f hf => .inl (hinv.passed f hf)
  case concat => exact ⟨hall ▸ List.prefix_rfl, fun _ => hall⟩
  case more =>
    intro k f hk
    rw [hinv.more k f hk]
    simp only [hdone,hall]

theorem writeLoop_ends : ∃ r, LoopEnds w.unwritten (writePass w) (.start (w.buf.length + 2)) r ∧
      Fragmented w.slot.linkBufSize w.connectionId w.buf r := by
  have hmono : FuelMonotone (writePass w) := fun _ _ _ _ _ => rfl
  have hends : ∃ r, LoopEnds w.unwritten (writePass w) (.start (w.buf.length + 2)) r := by
    apply LoopEnds.of_measure hmono (WriteInv w) (fun s => w.buf.length - s.fragpos) _ _ (start_inv w)
    · intro s hinv hs
      use 0
      rcases writePass_cases hsize hhost hcount 0 hs hinv with ⟨s',hagain,-⟩ | ⟨r,hleave,-⟩
      · simp [hagain,Flow.Hangs]
      · simp [hleave,Flow.Hangs]
    · intro s s' fuel hinv hs hagain
      obtain ⟨hinv',hlt⟩ := inv_of_again hsize hhost hcount hs hinv hagain
      have := hinv'.fragpos
      exact ⟨hinv',by omega⟩
  obtain ⟨r,hr⟩ := hends
  refine ⟨r,hr,?_⟩
  obtain ⟨t,hreaches,hexit⟩ := hr.exit
  have hinv : WriteInv w t := by
    apply hreaches.invariant (WriteInv w) _ (start_inv w)
    intro s s' fuel hinv hs hagain
    exact (inv_of_again hsize hhost hcount hs hinv hagain).1
  rcases hexit with ⟨hout,rfl⟩ | ⟨hs,fuel,hleave⟩
  · exact fragmented_of_done hout hinv
  · exact fragmented_of_leave hsize hhost hcount hs hinv hleave

end Step

theorem writeLoop_stuck (hsize : w.slot.linkBufSize = 2) (hbuf : 0 < w.buf.length) (hcount : w.buf.length < 2 ^ 31)
    (hturn : ∀ k, w.turn k = { uncopied := 0, attempts := [{ running := true, cam := .accepted }] })
    {r : WriteLoop} : ¬ LoopEnds w.unwritten (writePass w) (.start (w.buf.length + 2)) r := by
  apply LoopEnds.not_of_stuck (fun s => s.fragpos = 0)
  · intro s hs
    unfold IoWrite.unwritten
    omega
  · intro s fuel hs
    have hlen : w.fraglen s.fragpos = 0 := by
      rw [fraglen_eq (by omega) (by rw [hsize]; decide) (by omega) hcount,hsize]
      simp
    have hfragbuf : w.fragbuf s.fragpos = [w.connectionId, 0x80] := by
      unfold IoWrite.fragbuf
      rw [hlen,hs]
      simp [hbuf]
    have hattempts : writeAttempts w.slot [w.connectionId, 0x80] [{ running := true, cam := .accepted }] =
        (1, none) := by
      simp [writeAttempts,dvbCaEn50221WriteData,hsize]
    refine ⟨{ s with
      turns := s.turns + 1
      passed := s.passed ++ [[w.connectionId, 0x80]]
      accepted := s.accepted ++ [[w.connectionId, 0x80]] },?_,hs⟩
    unfold writePass
    simp only [hlen,hfragbuf,hturn,hattempts,Int.toNat_zero,Nat.min_zero,ne_eq,not_true_eq_false,if_false]
    rfl
  · rfl

end Loop

/-- A message is fragmented in every course of events exactly if it is empty or the CAM did not report a
link buffer of two bytes. -/
theorem ioWrite_fragmented_iff {ca : DvbCaPrivate} {slot connectionId : UInt8} {info info' : DvbCaSlot}
    {io : LinkInitIo} {buf : List UInt8} (hinit : dvbCaEn50221LinkInit info io = (info', 0))
    (hslot : ca.slotInfo[slot.toNat]? = some { info' with slotState := .running })
    (hcount : buf.length < 2 ^ 31) :
    (∀ turn, ∃ fuel r, dvbCaEn50221IoWrite fuel ca turn (slot :: connectionId :: buf) = some r ∧
        Fragmented info'.linkBufSize connectionId buf r) ↔
      io.reported ≠ 2 ∨ buf = [] := by
  obtain ⟨hsize, htwo⟩ := linkInit_size hinit
  have hhost : info'.linkBufSize ≤ hostLinkBufSize := by omega
  let call turn : IoWrite :=
    { slot := { info' with slotState := .running }, connectionId := connectionId, buf := buf, turn := turn }
  have heq : ∀ fuel turn, dvbCaEn50221IoWrite fuel ca turn (slot :: connectionId :: buf) =
      runLoop (call turn).unwritten (writePass (call turn)) fuel (.start (buf.length + 2)) := by
    intro fuel turn
    simp only [dvbCaEn50221IoWrite, hslot]
    rw [if_neg (by simp)]
  constructor
  · intro h
    by_contra hnot
    rw [not_or, not_not] at hnot
    obtain ⟨fuel, r, hr, -⟩ :=
      h fun _ => { uncopied := 0, attempts := [{ running := true, cam := .accepted }] }
    rw [heq] at hr
    have htwo' : info'.linkBufSize = 2 := by
      rw [hsize, hnot.1]
      decide
    exact @writeLoop_stuck (call _) htwo' (List.length_pos_iff.mpr hnot.2) hcount (fun _ => rfl) r
      ⟨fuel, hr⟩
  · intro h turn
    have hends : ∃ r, LoopEnds (call turn).unwritten (writePass (call turn)) (.start (buf.length + 2)) r ∧
        Fragmented info'.linkBufSize connectionId buf r := by
      rcases h with hne | rfl
      · apply @writeLoop_ends (call turn) _ hhost hcount
        have : io.reported ≥ 3 ∨ io.reported < 2 := by omega
        unfold hostLinkBufSize at hsize
        change 3 ≤ info'.linkBufSize
        omega
      · have hdone : ¬ (call turn).unwritten (.start (([] : List UInt8).length + 2)) := by
          simp [IoWrite.unwritten, call, WriteLoop.start]
        exact ⟨_, .of_not_guard hdone, fragmented_of_done hdone (start_inv (call turn))⟩
    obtain ⟨r, ⟨fuel, hr⟩, hfrag⟩ := hends
    exact ⟨fuel, r, (heq fuel turn).trans hr, hfrag⟩

/-- A link initialisation in which the CAM reports the given size and every operation succeeds. -/
def reports (hi lo : UInt8) : LinkInitIo where
  commandSr := 0
  waitDa := 0
  readData := 2
  buf := (hi, lo)
  commandRead := 0
  commandSw := 0
  waitFr := 0
  writeData := .accepted
  commandWritten := 0

def oneSlot (linkBufSize : Nat) : DvbCaPrivate where
  slotInfo := [{ slotState := .running, rxBuffer := none, linkBufSize := linkBufSize }]
  nextReadSlot := 0

theorem ioWrite_fragmented_four : ∃ fuel r, dvbCaEn50221IoWrite fuel (oneSlot 4)
        (fun _ => { uncopied := 0, attempts := [{ running := true, cam := .accepted }] })
        [0, 1, 7, 8, 9] = some r ∧ Fragmented 4 1 [7, 8, 9] r := by
  let info : DvbCaSlot := { slotState := .linkinit, rxBuffer := none, linkBufSize := 4 }
  have hinit : dvbCaEn50221LinkInit info (reports 0 4) = (info, 0) := by
    simp [dvbCaEn50221LinkInit, reports, LinkInitIo.reported, hostLinkBufSize, dvbCaEn50221WriteData, info]
  have hcount : ([7, 8, 9] : List UInt8).length < 2 ^ 31 := by
    simp only [List.length_cons, List.length_nil]
    omega
  exact (ioWrite_fragmented_iff hinit rfl hcount).mpr (.inl (by decide)) _

/-- A CAM that reports a link buffer of two bytes keeps the writer in its loop. -/
theorem ioWrite_not_fragmented :
    ¬ ∀ (ca : DvbCaPrivate) (slot connectionId : UInt8) (info info' : DvbCaSlot) (io : LinkInitIo)
      (buf : List UInt8), dvbCaEn50221LinkInit info io = (info', 0) →
      ca.slotInfo[slot.toNat]? = some { info' with slotState := .running } → buf.length < 2 ^ 31 →
      ∀ turn, ∃ fuel r, dvbCaEn50221IoWrite fuel ca turn (slot :: connectionId :: buf) = some r ∧
        Fragmented info'.linkBufSize connectionId buf r := by
  intro h
  let info : DvbCaSlot := { slotState := .linkinit, rxBuffer := none, linkBufSize := 2 }
  have hcount : ([7] : List UInt8).length < 2 ^ 31 := by
    simp only [List.length_cons, List.length_nil]
    omega
  have hinit : dvbCaEn50221LinkInit info (reports 0 2) = (info, 0) := by
    simp [dvbCaEn50221LinkInit, reports, LinkInitIo.reported, hostLinkBufSize, dvbCaEn50221WriteData, info]
  obtain ⟨fuel, r, hr, -⟩ := h (oneSlot 2) 0 1 info info (reports 0 2) [7] hinit rfl hcount
    fun _ => { uncopied := 0, attempts := [{ running := true, cam := .accepted }] }
  let w : IoWrite :=
    { slot := { info with slotState := .running }
      connectionId := 1
      buf := [7]
      turn := fun _ => { uncopied := 0, attempts := [{ running := true, cam := .accepted }] } }
  have hstuck := @writeLoop_stuck w rfl (by decide) (by simp [w]) (fun _ => rfl) r
  exact hstuck ⟨fuel, hr⟩

end LinuxDvb.CaEn50221
