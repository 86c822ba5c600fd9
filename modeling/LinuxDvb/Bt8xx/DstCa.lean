import LinuxDvb.Framework.Logged
import LinuxDvb.Framework.Memory

/-!
# The conditional access path of the DST cards

A CA_PMT that the user sends goes to the 8820 as one frame: seven bytes of header, the body and a checksum. What is read
and written in the two message buffers, and what is written to the card, goes to a log.
-/

namespace LinuxDvb.DstCa

/-! ## The code -/

/-- `p_ca_message->msg` and `hw_buffer->msg`. -/
inductive Buffer where
  | message
  | hw
deriving DecidableEq, Repr

inductive Access where
  | read (buffer : Buffer) (i : Nat)
  | write (buffer : Buffer) (i : Nat)
  /-- The bytes of a `write_dst`. -/
  | frame (data : List UInt8)
deriving DecidableEq, Repr

def readByte (buffer : Buffer) (m : Mem UInt8) (i : Nat) : Logged Access UInt8 := .one (.read buffer i) (m i)

def readRange (buffer : Buffer) (first n : Nat) : Logged Access Unit :=
  ⟨(), (List.range n).map fun i => .read buffer (first + i)⟩

def writeRange (buffer : Buffer) (first n : Nat) : Logged Access Unit :=
  ⟨(), (List.range n).map fun i => .write buffer (first + i)⟩

/-- The board, and the module parameter. `succeeds` says which attempts to write are acknowledged. -/
structure Board where
  dstHwCap : UInt32
  verbose : Nat
  succeeds : Nat → Bool

def asn1Words (msg : Mem UInt8) : Nat → Nat → UInt32 → Logged Access UInt32
  | _, 0, length => pure length
  | i, count + 1, length => do
    let b ← readByte .message msg i
    asn1Words msg (i + 1) count (length <<< 8 + b.toUInt32)

/-- `asn_1_decode`, at byte `i` of the message. -/
def asn1Decode (msg : Mem UInt8) (i : Nat) : Logged Access UInt32 := do
  let lengthField ← readByte .message msg i
  if lengthField < 0x80 then pure (lengthField &&& 0x7f).toUInt32
  else asn1Words msg (i + 1) (lengthField &&& 0x7f).toNat 0

/-- `debug_string`, also for a message with a single byte. -/
def debugString (verbose : Nat) (buffer : Buffer) (first : Nat) (length : UInt32) : Logged Access Unit :=
  if verbose > 3 then readRange buffer first length.toNat else pure ()

def byteSum (data : List UInt8) : UInt8 := data.foldl (· + ·) 0

def dstCheckSum (data : List UInt8) : UInt8 := if data = [] then 0 else ~~~byteSum data + 1

def putChecksum (verbose : Nat) (hw : Mem UInt8) (length : Nat) : Logged Access (Mem UInt8) := do
  readRange .hw 0 length
  writeRange .hw length 1
  debugString verbose .hw length 1
  pure (hw.write length [dstCheckSum (hw.slice 0 length)])

/-- `DST_TYPE_HAS_SESSION` -/
def hasSession : UInt32 := 128

def tagHeader (length : UInt32) : List UInt8 :=
  [((length &&& 0xff) + 7).toUInt8, 0x40, 0x03, 0x00, 0x03, (length &&& 0xff).toUInt8, 0x00]

def handleDstTag (dstHwCap : UInt32) (msg hw : Mem UInt8) (length : UInt32) : Logged Access (Int × Mem UInt8) :=
  if dstHwCap &&& hasSession ≠ 0 then do
    let msb ← readByte .message msg 1
    let lsb ← readByte .message msg 2
    writeRange .hw 2 2
    pure (0, hw.write 2 [msb, lsb])
  else if length > 247 then pure (-1, hw)
  else do
    writeRange .hw 0 7
    readRange .message 4 length.toNat
    writeRange .hw 7 length.toNat
    pure (0, (hw.write 0 (tagHeader length)).write 7 (msg.slice 4 length.toNat))

/-- `dst_ci_command`, without an answer. -/
def dstCiCommand (succeeds : Bool) (hw : Mem UInt8) (len : UInt8) : Logged Access Bool := do
  readRange .hw 0 len.toNat
  Logged.one (.frame (hw.slice 0 len.toNat)) succeeds

def retries : Nat := 5

/-- `dst_put_ci`, with the attempts that are left. -/
def dstPutCi (succeeds : Nat → Bool) (hw : Mem UInt8) (len : UInt8) : Nat → Nat → Logged Access Int
  | 0, _ => pure (-1)
  | left + 1, dstCaCommErr => do
    if ← dstCiCommand (succeeds dstCaCommErr) hw len then pure 0
    else dstPutCi succeeds hw len left (dstCaCommErr + 1)

def writeTo8820 (succeeds : Nat → Bool) (hw : Mem UInt8) (length : UInt8) : Logged Access Int := do
  let result ← dstPutCi succeeds hw length retries 0
  pure (if result < 0 then -1 else 0)

/-- `ca_set_pmt`. The results of `handle_dst_tag` and `write_to_8820` are not looked at. -/
def caSetPmt (b : Board) (msg hw : Mem UInt8) : Logged Access Int := do
  let length ← asn1Decode msg 3
  debugString b.verbose .message 4 length
  writeRange .hw 0 length.toNat
  let tagged ← handleDstTag b.dstHwCap msg (hw.write 0 (List.replicate length.toNat 0)) length
  let stringLength ← readByte .hw tagged.2 0
  let hw ← putChecksum b.verbose tagged.2 stringLength.toNat
  debugString b.verbose .hw 0 (length + 8)
  let _ ← writeTo8820 b.succeeds hw (length + 8).toUInt8
  pure 0

/-- `dst_check_ca_pmt`, for boards that are never taken to reply. -/
def dstCheckCaPmt (b : Board) (msg hw : Mem UInt8) : Logged Access Int := do
  let result ← caSetPmt b msg hw
  pure (if result < 0 then -1 else 0)

def caPmt : Nat := 0x9f8032

def caPmtReply : Nat := 0x9f8033

def command (msg : Mem UInt8) : Nat := ((msg 0).toNat <<< 8 ||| (msg 1).toNat) <<< 8 ||| (msg 2).toNat

/-- `ca_send_message`, for a message that has been copied; `other` is what the further commands do. -/
def caSendMessage (b : Board) (other : Nat → Logged Access Int) (msg hw : Mem UInt8) : Logged Access Int := do
  readRange .message 0 3
  if command msg = caPmt then do
    let result ← caSetPmt b msg hw
    pure (if result < 0 then -1 else 0)
  else if command msg = caPmtReply then do
    let result ← dstCheckCaPmt b msg hw
    pure (if result < 0 then -1 else 0)
  else other (command msg)

/-! ## What a message asks for -/

def lengthBytes (msg : Mem UInt8) : Nat := if msg 3 < 0x80 then 0 else (msg 3 &&& 0x7f).toNat

def bigEndian (bytes : List UInt8) : Nat := bytes.foldl (fun n b => n * 256 + b.toNat) 0

def bodyLength (msg : Mem UInt8) : Nat :=
  if msg 3 < 0x80 then (msg 3).toNat else bigEndian (msg.slice 4 (lengthBytes msg))

def IsBody (msg : Mem UInt8) (body : List UInt8) : Prop :=
  4 + lengthBytes msg + bodyLength msg ≤ 256 ∧ body = msg.slice (4 + lengthBytes msg) (bodyLength msg)

def IsFrame (body frame : List UInt8) : Prop :=
  body.length + 8 < 256 ∧
    (∃ checksum, frame =
      [UInt8.ofNat (body.length + 7), 0x40, 0x03, 0x00, 0x03, UInt8.ofNat body.length, 0x00] ++ body ++ [checksum]) ∧
    byteSum frame = 0

def InBuffer : Access → Prop
  | .read _ i => i < 256
  | .write _ i => i < 256
  | .frame _ => True

def Access.sent : Access → Option (List UInt8)
  | .frame data => some data
  | .read _ _ => none
  | .write _ _ => none

def frames (log : List Access) : List (List UInt8) := log.filterMap Access.sent

/-- The buffers are kept, and the message either fails with nothing sent, or its one frame is sent, in each attempt. -/
def Handled (msg : Mem UInt8) (m : Logged Access Int) : Prop :=
  Logged.All InBuffer m ∧
    ((m.value < 0 ∧ frames m.log = []) ∨
      ∃ body frame, IsBody msg body ∧ IsFrame body frame ∧ frames m.log ≠ [] ∧ ∀ f ∈ frames m.log, f = frame)

/-! ## What goes to the log -/

section Log

variable {α β : Type} {buffer : Buffer} {first n i : Nat} {msg hw : Mem UInt8}

theorem frames_bind (m : Logged Access α) (rest : α → Logged Access β) :
    frames (m >>= rest).log = frames m.log ++ frames (rest m.value).log := filterMap_append

theorem frames_pure (a : α) : frames (pure a : Logged Access α).log = [] := rfl

theorem frames_readByte : frames (readByte buffer hw i).log = [] := rfl

theorem frames_readRange : frames (readRange buffer first n).log = [] := by
  refine List.filterMap_eq_nil_iff.mpr fun e he => ?_
  obtain ⟨i,-,rfl⟩ := mem_map.mp he
  rfl

theorem frames_writeRange : frames (writeRange buffer first n).log = [] := by
  refine List.filterMap_eq_nil_iff.mpr fun e he => ?_
  obtain ⟨i,-,rfl⟩ := mem_map.mp he
  rfl

theorem frames_debugString {verbose : Nat} {length : UInt32} :
    frames (debugString verbose buffer first length).log = [] := by
  rw [debugString]
  split
  · exact frames_readRange
  · rfl

theorem readByte_inBuffer (h : i < 256) : Logged.All InBuffer (readByte buffer hw i) := (Logged.all_one _ _).mpr h

theorem readRange_inBuffer (h : first + n ≤ 256) : Logged.All InBuffer (readRange buffer first n) := by
  intro e he
  obtain ⟨i,hi,rfl⟩ := mem_map.mp he
  have hlt := mem_range.mp hi
  change first + i < 256
  omega

theorem writeRange_inBuffer (h : first + n ≤ 256) : Logged.All InBuffer (writeRange buffer first n) := by
  intro e he
  obtain ⟨i,hi,rfl⟩ := mem_map.mp he
  have hlt := mem_range.mp hi
  change first + i < 256
  omega

theorem debugString_inBuffer {verbose : Nat} {length : UInt32} (h : first + length.toNat ≤ 256) :
    Logged.All InBuffer (debugString verbose buffer first length) := by
  rw [debugString]
  split
  · exact readRange_inBuffer h
  · exact Logged.all_pure _

end Log

/-! ## The length field -/

section Length

variable {msg : Mem UInt8}

theorem asn1Words_toNat (msg : Mem UInt8) (i count : Nat) (length : UInt32) (n : Nat)
    (h : length.toNat = n % 4294967296) :
    (asn1Words msg i count length).value.toNat =
      (msg.slice i count).foldl (fun n b => n * 256 + b.toNat) n % 4294967296 := by
  induction count generalizing i length n with
  | zero => exact h
  | succ count ih =>
    refine ih (i + 1) _ _ ?_
    have hbyte : (readByte .message msg i).value.toUInt32.toNat = (msg i).toNat := UInt8.toNat_toUInt32 _
    have hlt := (msg i).toNat_lt
    rw [UInt32.toNat_add,UInt32.toNat_shiftLeft,hbyte,h,Nat.shiftLeft_eq]
    change (n % 4294967296 * 256 % 4294967296 + (msg i).toNat) % 4294967296 =
      (n * 256 + (msg i).toNat) % 4294967296
    omega

theorem asn1Words_log (msg : Mem UInt8) (i count : Nat) (length : UInt32) (h : i + count ≤ 256) :
    Logged.All InBuffer (asn1Words msg i count length) ∧ frames (asn1Words msg i count length).log = [] := by
  induction count generalizing i length with
  | zero => exact ⟨Logged.all_pure _,rfl⟩
  | succ count ih =>
    obtain ⟨hbuffer,hframes⟩ := ih (i + 1) (length <<< 8 + (msg i).toUInt32) (by omega)
    rw [asn1Words,Logged.all_bind,frames_bind]
    exact ⟨⟨readByte_inBuffer (by omega),hbuffer⟩,hframes⟩

theorem and_127_toNat (b : UInt8) : (b &&& 0x7f).toNat = b.toNat % 128 := by
  rw [UInt8.toNat_and]
  exact Nat.and_two_pow_sub_one_eq_mod b.toNat 7

theorem asn1Decode_toNat : (asn1Decode msg 3).value.toNat = bodyLength msg % 4294967296 := by
  rw [asn1Decode,readByte,Logged.value_one_bind,bodyLength,lengthBytes]
  by_cases hshort : msg 3 < 0x80
  · have hlt : (msg 3).toNat < 128 := hshort
    rw [if_pos hshort,if_pos hshort,Logged.value_pure,UInt8.toNat_toUInt32,and_127_toNat]
    omega
  · rw [if_neg hshort,if_neg hshort,if_neg hshort]
    exact asn1Words_toNat msg 4 _ 0 0 rfl

theorem asn1Decode_log : Logged.All InBuffer (asn1Decode msg 3) ∧ frames (asn1Decode msg 3).log = [] := by
  rw [asn1Decode,Logged.all_bind,frames_bind]
  refine ⟨⟨readByte_inBuffer (by decide),?_⟩,?_⟩
  · split
    · exact Logged.all_pure _
    · refine (asn1Words_log msg _ _ 0 ?_).1
      have hlt := and_127_toNat (msg 3)
      change 3 + 1 + (msg 3 &&& 0x7f).toNat ≤ 256
      omega
  · split
    · rfl
    · refine (asn1Words_log msg _ _ 0 ?_).2
      have hlt := and_127_toNat (msg 3)
      change 3 + 1 + (msg 3 &&& 0x7f).toNat ≤ 256
      omega

end Length

/-! ## The attempts to write -/

section Attempts

variable {hw : Mem UInt8} {len : UInt8} {succeeds : Nat → Bool} {left dstCaCommErr : Nat}

theorem frames_dstCiCommand {acknowledged : Bool} :
    frames (dstCiCommand acknowledged hw len).log = [hw.slice 0 len.toNat] := by
  rw [dstCiCommand,frames_bind,frames_readRange]
  rfl

theorem frames_dstPutCi : ∀ f ∈ frames (dstPutCi succeeds hw len left dstCaCommErr).log, f = hw.slice 0 len.toNat := by
  induction left generalizing dstCaCommErr with
  | zero => exact fun f hf => absurd hf not_mem_nil
  | succ left ih =>
    intro f hf
    rw [dstPutCi,frames_bind,frames_dstCiCommand] at hf
    rcases mem_append.mp hf with h | h
    · exact mem_singleton.mp h
    · split at h
      · exact absurd h not_mem_nil
      · exact ih f h

theorem frames_dstPutCi_ne_nil : frames (dstPutCi succeeds hw len (left + 1) dstCaCommErr).log ≠ [] := by
  rw [dstPutCi,frames_bind,frames_dstCiCommand]
  exact cons_ne_nil _ _

theorem dstPutCi_inBuffer : Logged.All InBuffer (dstPutCi succeeds hw len left dstCaCommErr) := by
  have hlt := len.toNat_lt
  induction left generalizing dstCaCommErr with
  | zero => exact Logged.all_pure _
  | succ left ih =>
    rw [dstPutCi,Logged.all_bind,dstCiCommand,Logged.all_bind]
    refine ⟨⟨readRange_inBuffer (by omega),(Logged.all_one _ _).mpr trivial⟩,?_⟩
    split
    · exact Logged.all_pure _
    · exact ih

end Attempts

/-! ## The frame -/

section Frame

variable {b : Board} {msg hw : Mem UInt8} {length : UInt32} {body : List UInt8} {verbose : Nat}

theorem byteSum_append_singleton (data : List UInt8) (c : UInt8) : byteSum (data ++ [c]) = byteSum data + c := by
  rw [byteSum,foldl_append]
  rfl

theorem add_neg_byte (v : UInt8) : v + (~~~v + 1) = 0 := by
  have hlt := v.toNat_lt
  have hnot : (~~~v).toNat = 255 - v.toNat := UInt8.toNat_not v
  rw [← UInt8.toNat_inj,UInt8.toNat_add,UInt8.toNat_add,hnot]
  change (v.toNat + (255 - v.toNat + 1) % 256) % 256 = 0
  omega

theorem byteSum_checksum {data : List UInt8} (h : data ≠ []) : byteSum (data ++ [dstCheckSum data]) = 0 := by
  rw [byteSum_append_singleton,dstCheckSum,if_neg h]
  exact add_neg_byte _

theorem tagHeader_eq (length : UInt32) (h : length.toNat ≤ 247) : tagHeader length =
      [UInt8.ofNat (length.toNat + 7), 0x40, 0x03, 0x00, 0x03, UInt8.ofNat length.toNat, 0x00] := by
  have hlow : length &&& 0xff = length := by
    rw [← UInt32.toNat_inj,UInt32.toNat_and]
    exact (Nat.and_two_pow_sub_one_eq_mod length.toNat 8).trans (Nat.mod_eq_of_lt (by omega))
  have hsum : (length + 7).toUInt8 = UInt8.ofNat (length.toNat + 7) := by
    rw [← UInt8.toNat_inj,UInt32.toNat_toUInt8,UInt32.toNat_add,UInt8.toNat_ofNat']
    change (length.toNat + 7) % 4294967296 % 256 = _
    omega
  have hsame : length.toUInt8 = UInt8.ofNat length.toNat := by
    rw [← UInt8.toNat_inj,UInt32.toNat_toUInt8,UInt8.toNat_ofNat']
  rw [tagHeader,hlow,hsum,hsame]

/-- The buffer after `handle_dst_tag` has taken a body. -/
def tagged (msg hw : Mem UInt8) (length : UInt32) : Mem UInt8 :=
  (hw.write 0 (tagHeader length)).write 7 (msg.slice 4 length.toNat)

theorem slice_tagged :
    (tagged msg hw length).slice 0 (length.toNat + 7) = tagHeader length ++ msg.slice 4 length.toNat := by
  have hbody := Mem.slice_write_append (hw.write 0 (tagHeader length)) 0 7 (msg.slice 4 length.toNat)
  have hheader : (hw.write 0 (tagHeader length)).slice 0 7 = tagHeader length := Mem.slice_write_self hw 0 _
  rw [Mem.length_slice,hheader,Nat.zero_add,Nat.add_comm 7] at hbody
  exact hbody

theorem tagged_zero : tagged msg hw length 0 = ((length &&& 0xff) + 7).toUInt8 := rfl

theorem handleDstTag_taken (hsession : b.dstHwCap &&& hasSession = 0) (h : length.toNat ≤ 247) :
    (handleDstTag b.dstHwCap msg hw length).value = (0, tagged msg hw length) := by
  have hshort : ¬ length > 247 := by
    change ¬ 247 < length.toNat
    omega
  rw [handleDstTag,if_neg (not_not_intro hsession),if_neg hshort]
  rfl

theorem handleDstTag_frames (hsession : b.dstHwCap &&& hasSession = 0) :
    frames (handleDstTag b.dstHwCap msg hw length).log = [] := by
  rw [handleDstTag,if_neg (not_not_intro hsession)]
  split
  · rfl
  · rw [frames_bind,frames_bind,frames_bind,frames_writeRange,frames_readRange,frames_writeRange]
    rfl

theorem handleDstTag_inBuffer (hsession : b.dstHwCap &&& hasSession = 0) (h : length.toNat ≤ 247) :
    Logged.All InBuffer (handleDstTag b.dstHwCap msg hw length) := by
  rw [handleDstTag,if_neg (not_not_intro hsession)]
  split
  · exact Logged.all_pure _
  · rw [Logged.all_bind,Logged.all_bind,Logged.all_bind]
    exact ⟨writeRange_inBuffer (by decide),readRange_inBuffer (by omega),writeRange_inBuffer (by omega),
      Logged.all_pure _⟩

theorem putChecksum_frames {n : Nat} : frames (putChecksum verbose hw n).log = [] := by
  rw [putChecksum,frames_bind,frames_bind,frames_bind,frames_readRange,frames_writeRange,frames_debugString]
  rfl

theorem putChecksum_inBuffer {n : Nat} (h : n < 256) : Logged.All InBuffer (putChecksum verbose hw n) := by
  rw [putChecksum,Logged.all_bind,Logged.all_bind,Logged.all_bind]
  have hone : (1 : UInt32).toNat = 1 := rfl
  exact ⟨readRange_inBuffer (by omega),writeRange_inBuffer (by omega),debugString_inBuffer (by omega),
    Logged.all_pure _⟩

end Frame

/-! ## The message -/

section Message

variable {b : Board} {msg hw : Mem UInt8} {body frame : List UInt8}

def sentBuffer (b : Board) (msg hw : Mem UInt8) (length : UInt32) : Mem UInt8 :=
  let tagged := (handleDstTag b.dstHwCap msg (hw.write 0 (List.replicate length.toNat 0)) length).value.2
  tagged.write (tagged 0).toNat [dstCheckSum (tagged.slice 0 (tagged 0).toNat)]

theorem caSetPmt_value : (caSetPmt b msg hw).value = 0 := rfl

theorem caSetPmt_frames (hsession : b.dstHwCap &&& hasSession = 0) : frames (caSetPmt b msg hw).log =
      frames (dstPutCi b.succeeds (sentBuffer b msg hw (asn1Decode msg 3).value)
        ((asn1Decode msg 3).value + 8).toUInt8 retries 0).log := by
  rw [caSetPmt]
  simp only [frames_bind,asn1Decode_log.2,frames_debugString,frames_writeRange,handleDstTag_frames hsession,
    frames_readByte,putChecksum_frames,writeTo8820,frames_pure,nil_append,append_nil]
  rfl

theorem transfer_toNat (length : UInt32) : (length + 8).toUInt8.toNat = (length.toNat + 8) % 256 := by
  rw [UInt32.toNat_toUInt8,UInt32.toNat_add]
  change (length.toNat + 8) % 4294967296 % 256 = _
  omega

theorem slice_sentBuffer {length : UInt32} (hsession : b.dstHwCap &&& hasSession = 0) (h : length.toNat ≤ 247) :
    (sentBuffer b msg hw length).slice 0 (length + 8).toUInt8.toNat =
      tagHeader length ++ msg.slice 4 length.toNat ++
        [dstCheckSum (tagHeader length ++ msg.slice 4 length.toNat)] := by
  have hfirst : (tagged msg (hw.write 0 (List.replicate length.toNat 0)) length 0).toNat = length.toNat + 7 := by
    have hheader := tagHeader_eq length h
    rw [tagHeader,List.cons.injEq] at hheader
    rw [tagged_zero,hheader.1,UInt8.toNat_ofNat']
    omega
  have hlast : (length + 8).toUInt8.toNat = length.toNat + 7 + 1 := by
    rw [transfer_toNat]
    omega
  rw [sentBuffer,handleDstTag_taken hsession h,hlast]
  dsimp only
  have hwrite := Mem.slice_write_append (tagged msg (hw.write 0 (List.replicate length.toNat 0)) length) 0
    (length.toNat + 7) [dstCheckSum (tagHeader length ++ msg.slice 4 length.toNat)]
  rw [Nat.zero_add,slice_tagged] at hwrite
  rw [hfirst,slice_tagged]
  exact hwrite

theorem caSetPmt_inBuffer (hsession : b.dstHwCap &&& hasSession = 0) (h : (asn1Decode msg 3).value.toNat ≤ 247) :
    Logged.All InBuffer (caSetPmt b msg hw) := by
  have hmore : ((asn1Decode msg 3).value + 8).toNat ≤ 256 := by
    rw [UInt32.toNat_add]
    change ((asn1Decode msg 3).value.toNat + 8) % 4294967296 ≤ 256
    omega
  rw [caSetPmt]
  simp only [Logged.all_bind,writeTo8820,Logged.all_pure,and_true]
  exact ⟨asn1Decode_log.1,debugString_inBuffer (by omega),writeRange_inBuffer (by omega),
    handleDstTag_inBuffer hsession h,readByte_inBuffer (by decide),putChecksum_inBuffer (UInt8.toNat_lt _),
    debugString_inBuffer (by omega),dstPutCi_inBuffer⟩

theorem IsFrame.length_eq (h : IsFrame body frame) : frame.length = body.length + 8 := by
  obtain ⟨-,⟨checksum,rfl⟩,-⟩ := h
  simp only [length_append,length_cons,length_nil]
  omega

theorem isFrame_iff (h : body.length ≤ 247) (length : UInt32) (hlength : length.toNat = body.length)
    (data : List UInt8) :
    IsFrame body (tagHeader length ++ data ++ [dstCheckSum (tagHeader length ++ data)]) ↔ data = body := by
  have hheader := tagHeader_eq length (by omega)
  rw [hlength] at hheader
  constructor
  · rintro ⟨-,⟨checksum,hframe⟩,-⟩
    rw [hheader] at hframe
    have hdata := List.append_inj_left' hframe rfl
    exact append_cancel_left hdata
  · rintro rfl
    refine ⟨by omega,⟨_,by rw [hheader]⟩,byteSum_checksum ?_⟩
    exact List.append_ne_nil_of_left_ne_nil (cons_ne_nil _ _) _

def Sendable (msg : Mem UInt8) : Prop :=
  bodyLength msg ≤ 247 ∧ 4 + lengthBytes msg + bodyLength msg ≤ 256 ∧
    msg.slice 4 (bodyLength msg) = msg.slice (4 + lengthBytes msg) (bodyLength msg)

theorem caSetPmt_handled_iff (hw : Mem UInt8) (hsession : b.dstHwCap &&& hasSession = 0) :
    Handled msg (caSetPmt b msg hw) ↔ Sendable msg := by
  have hlength : (asn1Decode msg 3).value.toNat = bodyLength msg % 4294967296 := asn1Decode_toNat
  constructor
  · rintro ⟨-,⟨hvalue,-⟩ | ⟨body,frame,⟨hinside,hbody⟩,hframe,hsome,hall⟩⟩
    · rw [caSetPmt_value] at hvalue
      omega
    · have hbodyLength : body.length = bodyLength msg := by rw [hbody,Mem.length_slice]
      have hsame : (asn1Decode msg 3).value.toNat = body.length := by omega
      obtain ⟨sent,hsent⟩ := List.exists_mem_of_ne_nil _ hsome
      have hbytes := hall sent hsent
      rw [caSetPmt_frames hsession] at hsent
      have hslice := frames_dstPutCi sent hsent
      have hcount := congrArg List.length hslice
      rw [Mem.length_slice,transfer_toNat,hbytes,hframe.length_eq] at hcount
      have hfits := hframe.1
      have hshort : (asn1Decode msg 3).value.toNat ≤ 247 := by omega
      rw [hbytes,slice_sentBuffer hsession hshort] at hslice
      rw [hslice] at hframe
      have hdata := (isFrame_iff (by omega) _ hsame _).mp hframe
      refine ⟨by omega,hinside,?_⟩
      rw [← hbody,← hdata,hsame,hbodyLength]
  · rintro ⟨hshort,hinside,hsame⟩
    have hvalue : (asn1Decode msg 3).value.toNat = bodyLength msg := by omega
    have hbodyLength : (msg.slice (4 + lengthBytes msg) (bodyLength msg)).length = bodyLength msg :=
      Mem.length_slice _ _ _
    refine ⟨caSetPmt_inBuffer hsession (by omega),Or.inr ⟨_,
      (sentBuffer b msg hw (asn1Decode msg 3).value).slice 0 ((asn1Decode msg 3).value + 8).toUInt8.toNat,
      ⟨hinside,rfl⟩,?_,?_,?_⟩⟩
    · rw [slice_sentBuffer hsession (by omega)]
      refine (isFrame_iff (by omega) _ (by omega) _).mpr ?_
      rw [hvalue,hsame]
    · rw [caSetPmt_frames hsession]
      exact frames_dstPutCi_ne_nil
    · rw [caSetPmt_frames hsession]
      exact frames_dstPutCi

end Message

/-- A PMT that is sent with `CA_SEND_MSG` is handled just when it is short and its body stands also right behind the
first byte of its length. -/
theorem ca_message_handled_iff (b : Board) (other : Nat → Logged Access Int) (msg hw : Mem UInt8)
    (hsession : b.dstHwCap &&& hasSession = 0) (htag : command msg = caPmt ∨ command msg = caPmtReply) :
    Handled msg (caSendMessage b other msg hw) ↔ Sendable msg := by
  rw [← caSetPmt_handled_iff hw hsession]
  have hheader : Logged.All InBuffer (readRange .message 0 3) := readRange_inBuffer (by decide)
  -- both tags end in the same call, and hand its result on
  have hlog : (Logged.All InBuffer (caSendMessage b other msg hw) ↔ Logged.All InBuffer (caSetPmt b msg hw)) ∧
      frames (caSendMessage b other msg hw).log = frames (caSetPmt b msg hw).log ∧
      (caSendMessage b other msg hw).value = (caSetPmt b msg hw).value := by
    rw [caSendMessage, dstCheckCaPmt]
    rcases htag with h | h
    · rw [if_pos h]
      simp only [Logged.all_bind, Logged.all_pure, and_true, frames_bind, frames_pure, frames_readRange,
        List.nil_append, List.append_nil, Logged.value_bind, Logged.value_pure, caSetPmt_value]
      exact ⟨and_iff_right hheader, trivial, rfl⟩
    · have hother : ¬ command msg = caPmt := by
        rw [h]
        decide
      rw [if_neg hother, if_pos h]
      simp only [Logged.all_bind, Logged.all_pure, and_true, frames_bind, frames_pure, frames_readRange,
        List.nil_append, List.append_nil, Logged.value_bind, Logged.value_pure, caSetPmt_value]
      exact ⟨and_iff_right hheader, trivial, rfl⟩
  rw [Handled, Handled, hlog.1, hlog.2.1, hlog.2.2]

section Samples

def sampleBoard : Board := ⟨0, 5, fun _ => true⟩

def noOther (_ : Nat) : Logged Access Int := pure 0

def shortPmt : Mem UInt8 := Mem.ofList [0x9f, 0x80, 0x32, 0x02, 0x03, 0x01]

def longPmt : Mem UInt8 := Mem.ofList [0x9f, 0x80, 0x32, 0x81, 0x02, 0x03, 0x01]

theorem ca_message_handled_short : Handled shortPmt (caSendMessage sampleBoard noOther shortPmt fun _ => 0) :=
  (ca_message_handled_iff sampleBoard noOther shortPmt (fun _ => 0) rfl (Or.inl rfl)).mpr (by
    rw [Sendable]
    decide)

/-- The length byte becomes part of the body. -/
theorem ca_message_shifted : frames (caSendMessage sampleBoard noOther longPmt fun _ => 0).log =
        [[0x09, 0x40, 0x03, 0x00, 0x03, 0x02, 0x00, 0x02, 0x03, 0xaa]] ∧
      ¬ Handled longPmt (caSendMessage sampleBoard noOther longPmt fun _ => 0) := by
  have hsent : frames (caSendMessage sampleBoard noOther longPmt fun _ => 0).log =
      [[0x09, 0x40, 0x03, 0x00, 0x03, 0x02, 0x00, 0x02, 0x03, 0xaa]] := by decide
  refine ⟨hsent, ?_⟩
  rintro ⟨-, ⟨hvalue, -⟩ | ⟨body, frame, ⟨-, rfl⟩, hframe, -, hall⟩⟩
  · exact absurd hvalue (by decide)
  · rw [hsent] at hall
    rw [← hall _ (List.mem_singleton_self _)] at hframe
    obtain ⟨-, ⟨checksum, h⟩, -⟩ := hframe
    have hbody : longPmt.slice (4 + lengthBytes longPmt) (bodyLength longPmt) = [0x03, 0x01] := by decide
    rw [hbody] at h
    have hbyte : (0x02 : UInt8) = 0x03 := congrArg (fun data : List UInt8 => data.getD 7 0) h
    exact absurd hbyte (by decide)

end Samples

end LinuxDvb.DstCa
