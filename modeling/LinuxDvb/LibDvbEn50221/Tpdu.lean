import LinuxDvb.LibDvbEn50221.Poll

/-!
# TPDUs of the host

What `en50221_tl_send_data` and `en50221_tl_send_datav` put into the queue is decoded by the header rules of
`en50221_tl_process_data`.
-/

namespace LinuxDvb.En50221

open TransportLayer

variable {slots conns : Nat}

def Message.bytes (msg : Message) : List UInt8 := msg.data.take msg.length

def Message.Carries (msg : Message) (connectionId : UInt8) (payload : List UInt8) : Prop :=
  parseTpdu msg.bytes msg.bytes.length = some (some ⟨tDataLast, connectionId, payload, []⟩)

namespace TransportLayer

/-- The call was refused and nothing is queued, or exactly one TPDU is queued that carries the payload. -/
def SendsTpdu (tl : TransportLayer slots conns) (slotId connectionId : UInt8) (payload : List UInt8)
    (r : TlResult slots conns) : Prop :=
  (r.2.2 < 0 ∧ ∀ s c, (r.1.conn s c).sendQueue = (tl.conn s c).sendQueue) ∨
    (0 ≤ r.2.2 ∧ ∃ s c msg, s.val = slotId.toNat ∧ c.val = connectionId.toNat ∧ msg.Carries connectionId payload ∧
      ∀ s' c', (r.1.conn s' c').sendQueue =
        if s' = s ∧ c' = c then (tl.conn s c).sendQueue ++ [msg] else (tl.conn s' c').sendQueue)

def TakesData (tl : TransportLayer slots conns) (slotId connectionId : UInt8) (malloc : Bool) : Prop :=
  malloc ∧ ∃ s c, tl.checkSlot slotId = some s ∧ toFin? conns connectionId.toNat = some c ∧
    (tl.conn s c).state = .active

end TransportLayer

theorem parseTpdu_data_length {data : List UInt8} {n : Nat} {tpdu : Tpdu}
    (h : parseTpdu data n = some (some tpdu)) : tpdu.data.length ≤ 65534 := by
  unfold parseTpdu at h
  simp only [bind_eq_bind,bind_eq_some_iff] at h
  obtain ⟨tag,-,decoded,hdecode,h⟩ := h
  cases decoded with
  | none => cases h
  | some decoded =>
    have hlength := asn1Decode_lt hdecode
    simp only at h
    split at h
    · cases h
    rw [bind_eq_some_iff] at h
    obtain ⟨connectionId,-,h⟩ := h
    rw [bind_eq_some_iff] at h
    obtain ⟨payload,hpayload,h⟩ := h
    cases h
    unfold readBytes at hpayload
    split at hpayload
    · cases hpayload
      rw [length_take]
      omega
    · cases hpayload

theorem parseTpdu_encode {length : UInt16} {field : List UInt8} (h : asn1Encode length 3 = some field)
    (tag connectionId : UInt8) {payload : List UInt8} (rest : List UInt8)
    (hlength : length.toNat = payload.length + 1) :
    parseTpdu (tag :: field ++ connectionId :: (payload ++ rest))
        (tag :: field ++ connectionId :: (payload ++ rest)).length =
      some (some ⟨tag, connectionId, payload, rest⟩) := by
  have hdecode := asn1Decode_encode h (connectionId :: (payload ++ rest))
  have hid : (tag :: field ++ connectionId :: (payload ++ rest))[1 + field.length]? = some connectionId := by
    rw [Nat.add_comm,cons_append,getElem?_cons_succ,List.getElem?_append_right (Nat.le_refl _),
      Nat.sub_self,getElem?_cons_zero]
  have hbehind : (tag :: field ++ connectionId :: (payload ++ rest)).drop (1 + field.length + 1) =
      payload ++ rest := by
    rw [show 1 + field.length + 1 = (field.length + 1) + 1 by omega,cons_append,
      drop_succ_cons,← drop_drop,drop_left]
    rfl
  unfold parseTpdu
  simp only [cons_append,getElem?_cons_zero,drop_succ_cons,drop_zero,
    length_cons,Nat.add_sub_cancel,bind_eq_bind,bind_some] at hdecode hid hbehind ⊢
  rw [hdecode]
  simp only [bind_some]
  rw [if_neg (by simp only [length_append, length_cons]; omega),hid]
  simp only [bind_some]
  rw [hbehind,hlength,Nat.add_sub_cancel,readBytes,if_pos (by simp)]
  simp

theorem checkSlot_val {tl : TransportLayer slots conns} {slotId : UInt8} {s : Fin slots}
    (h : tl.checkSlot slotId = some s) : s.val = slotId.toNat := by
  unfold checkSlot toFin? at h
  split at h
  · rw [Option.filter_eq_some_iff,Option.some.injEq] at h
    rw [← h.1]
  · cases h

theorem toFin?_val {n i : Nat} {c : Fin n} (h : toFin? n i = some c) : c.val = i := by
  unfold toFin? at h
  split at h
  · cases h
    rfl
  · cases h

theorem sendBytes_refused {tl : TransportLayer slots conns} {slotId connectionId : UInt8} {malloc : Bool}
    (h : ¬tl.TakesData slotId connectionId malloc) (dataSize : Nat) (bytes : List UInt8) :
    (tl.sendBytes slotId connectionId dataSize bytes malloc).2 = ([], -1) ∧
      ∀ s c, (tl.sendBytes slotId connectionId dataSize bytes malloc).1.conn s c = tl.conn s c := by
  unfold sendBytes
  cases hslot : tl.checkSlot slotId with
  | none => exact ⟨rfl,fun _ _ => rfl⟩
  | some s =>
    cases hconn : toFin? conns connectionId.toNat with
    | none => exact ⟨rfl,fun _ _ => rfl⟩
    | some c =>
      dsimp only
      split
      · exact ⟨rfl,fun _ _ => rfl⟩
      split
      · exact ⟨rfl,fun _ _ => rfl⟩
      · rename_i hactive hmalloc
        rw [not_not] at hactive
        exact absurd ⟨by simpa using hmalloc,s,c,hslot,hconn,hactive⟩ h

theorem sendBytes_taken {tl : TransportLayer slots conns} {slotId connectionId : UInt8} {s : Fin slots}
    {c : Fin conns} (hslot : tl.checkSlot slotId = some s)
    (hconn : toFin? conns connectionId.toNat = some c) (hactive : (tl.conn s c).state = .active)
    (dataSize : Nat) (bytes : List UInt8) :
    ∃ field, asn1Encode (UInt16.ofNat (dataSize + 1)) 3 = some field ∧ field.length ≤ 3 ∧
      tl.sendBytes slotId connectionId dataSize bytes true =
        (tl.queueMessage s c (tDataLast :: field ++ connectionId :: bytes)
          ((1 + field.length + 1 + dataSize) % 2 ^ 32), [], 0) := by
  obtain ⟨field,hfield,-,hle⟩ := asn1Encode_isSome (UInt16.ofNat (dataSize + 1))
  refine ⟨field,hfield,hle,?_⟩
  unfold sendBytes
  rw [hslot]
  dsimp only
  rw [hconn]
  dsimp only
  rw [if_neg (by rw [not_not]; exact hactive),if_neg (by simp),hfield]

theorem toNat_tpduLength {n : Nat} (h : n ≤ 65534) : (UInt16.ofNat (n + 1)).toNat = n + 1 := by
  rw [UInt16.toNat_ofNat']
  omega

theorem carries_of_le {field payload : List UInt8} (connectionId : UInt8) (use : Nat)
    (h : asn1Encode (UInt16.ofNat (payload.length + 1)) 3 = some field) (hfield : field.length ≤ 3)
    (hle : payload.length ≤ 65534) :
    (Message.mk (tDataLast :: field ++ connectionId :: payload)
      ((1 + field.length + 1 + payload.length) % 2 ^ 32) use).Carries connectionId payload := by
  have hlength := toNat_tpduLength hle
  have hwhole : (tDataLast :: field ++ connectionId :: payload).length ≤
      (1 + field.length + 1 + payload.length) % 2 ^ 32 := by
    rw [Nat.mod_eq_of_lt (by omega)]
    simp only [cons_append,length_cons,length_append]
    omega
  have hparse := parseTpdu_encode h tDataLast connectionId [] hlength
  rw [append_nil] at hparse
  unfold Message.Carries Message.bytes
  dsimp only
  rw [take_of_length_le hwhole]
  exact hparse

theorem sendBytes_sendsTpdu_iff (tl : TransportLayer slots conns) (slotId connectionId : UInt8)
    (malloc : Bool) {dataSize : Nat} {payload : List UInt8}
    (hsize : payload.length ≤ 65534 → dataSize = payload.length) :
    tl.SendsTpdu slotId connectionId payload
        (tl.sendBytes slotId connectionId dataSize payload malloc) ↔
      (tl.TakesData slotId connectionId malloc → payload.length ≤ 65534) := by
  constructor
  · intro hsends htakes
    obtain ⟨hmalloc,s,c,hslot,hconn,hactive⟩ := htakes
    obtain ⟨field,-,-,hsend⟩ := sendBytes_taken hslot hconn hactive dataSize payload
    rw [hmalloc,hsend] at hsends
    rcases hsends with ⟨hret,-⟩ | ⟨-,s',c',msg,-,-,hcarries,-⟩
    · exact absurd hret (by simp)
    · exact parseTpdu_data_length hcarries
  · intro h
    by_cases htakes : tl.TakesData slotId connectionId malloc
    · have hle := h htakes
      obtain ⟨hmalloc,s,c,hslot,hconn,hactive⟩ := htakes
      obtain ⟨field,hfield,hshort,hsend⟩ := sendBytes_taken hslot hconn hactive dataSize payload
      rw [hsize hle] at hfield hsend ⊢
      rw [hmalloc,hsend]
      refine .inr ⟨Int.le_refl 0,s,c,_,checkSlot_val hslot,toFin?_val hconn,
        carries_of_le connectionId (tl.conn s c).use hfield hshort hle,?_⟩
      intro s' c'
      dsimp only [queueMessage]
      rw [conn_updConn,apply_ite Connection.sendQueue]
    · obtain ⟨hret,hconn⟩ := sendBytes_refused htakes dataSize payload
      refine .inl ⟨?_,fun s c => by rw [hconn]⟩
      rw [hret]
      exact Int.negSucc_lt_zero 0

/-- A payload is queued as one TPDU that decodes to it exactly if it has at most 65534 bytes or the call is
refused, given in one piece or in a vector; received bytes are handled without a read outside of them. -/
theorem tpdu_round_trip (tl : TransportLayer slots conns) (slotId connectionId : UInt8) (malloc : Bool) :
    (∀ data, tl.SendsTpdu slotId connectionId data (tl.sendData slotId connectionId data malloc) ↔
      (tl.TakesData slotId connectionId malloc → data.length ≤ 65534)) ∧
    (∀ vector : List (List UInt8),
      tl.SendsTpdu slotId connectionId vector.flatten (tl.sendDatav slotId connectionId vector malloc) ↔
      (tl.TakesData slotId connectionId malloc → (vector.map List.length).sum ≤ 65534)) ∧
    ∀ (s : Fin slots) (io : SlotIo conns) (data : List UInt8),
      (processData s io data.length tl data).isSome := by
  refine ⟨?_, ?_, ?_⟩
  · intro data
    exact sendBytes_sendsTpdu_iff tl slotId connectionId malloc fun _ => rfl
  · intro vector
    rw [← List.length_flatten]
    apply sendBytes_sendsTpdu_iff tl slotId connectionId malloc
    intro hle
    rw [← List.length_flatten, Nat.mod_eq_of_lt (by omega)]
  · intro s io data
    exact processData_isSome s io tl (Nat.le_refl _)

def oneActive : TransportLayer 1 2 where
  slot := fun _ =>
    { caHndl := some 3
      slot := 0
      connection := fun c =>
        { state := if c = 1 then .active else .idle
          txTime := none, chainBuffer := none, sendQueue := [], use := if c = 1 then 1 else 0 } }
  error := 0
  errorSlot := 0

/-- 65535 bytes are queued with the length 0. -/
theorem tpdu_not_decoded : ¬oneActive.SendsTpdu 0 1 (List.replicate 65535 0)
      (oneActive.sendData 0 1 (List.replicate 65535 0) true) := by
  have htakes : oneActive.TakesData 0 1 true := ⟨rfl, 0, 1, rfl, rfl, rfl⟩
  intro h
  have hle := (sendBytes_sendsTpdu_iff oneActive 0 1 true fun _ => rfl).mp h htakes
  rw [List.length_replicate] at hle
  omega

end LinuxDvb.En50221
