import LinuxDvb.LibDvbEn50221.CaReceive

/-!
# What is done with a received CA object

The ids of a `ca_info` and the entries of a `ca_pmt_reply` stand one behind another. The ids are counted; the reply table
is walked in steps of an entry up to the end of the object, so that bytes left behind the last entry are taken for one
more.
-/

namespace LinuxDvb.En50221

/-- An entry of the reply table: the word with the PID in its low 13 bits, and `CA_enable` with its flag. -/
structure PmtReplyStream where
  esPid : UInt16
  caEnable : UInt8

def PmtReplyStream.bytes (word : Nat → List UInt8) (s : PmtReplyStream) : List UInt8 :=
  word s.esPid.toNat ++ [s.caEnable]

/-- The fields of `struct en50221_app_pmt_reply`, and the entries behind it. -/
structure PmtReply where
  programNumber : UInt16
  version : UInt8
  caEnable : UInt8
  streams : List PmtReplyStream

def PmtReply.header (word : Nat → List UInt8) (r : PmtReply) : List UInt8 :=
  word r.programNumber.toNat ++ [r.version, r.caEnable]

def PmtReply.bytes (word : Nat → List UInt8) (r : PmtReply) : List UInt8 :=
  r.header word ++ r.streams.flatMap (PmtReplyStream.bytes word)

def idBytes (word : Nat → List UInt8) (ids : List UInt16) : List UInt8 := ids.flatMap fun id => word id.toNat

/-- The buffer starts with an object: its tag, its length and as many bytes of it, and what is behind it. -/
structure StandsObject (tag : Nat) (buffer field body rest : List UInt8) : Prop where
  eq : buffer = (tagBytes tag ++ field) ++ (body ++ rest)
  length : decodeLength (field ++ (body ++ rest)) = some (field.length, body.length)

def Taken (buffer : List UInt8) : Prop :=
  ∃ field body rest, StandsObject tagCaInfo buffer field body rest ∨
    StandsObject tagCaPmtReply buffer field body rest ∧ 4 ≤ body.length

def KeepsRest (front body rest : List UInt8) (o : CaOutcome) : Prop :=
  ∃ swapped ret events, o = .returned swapped ret events ∧
    (∃ host, host.length = body.length ∧ swapped.bytes = front ++ (host ++ rest)) ∧
    ∀ pos ∈ swapped.swaps, front.length ≤ pos ∧ pos + 2 ≤ front.length + body.length

section Asked

variable (ca : Ca) (slotId : UInt8) (sessionNumber : UInt16) (status : Int)

/-- The callback gets the ids, each of which is swapped once; an odd byte behind them is kept. -/
def InfoHandedOn (front body rest : List UInt8) (o : CaOutcome) : Prop :=
  ∃ ids odd, body = idBytes be16 ids ++ odd ∧ odd.length < 2 ∧
    o = .tell ⟨front ++ ((idBytes le16 ids ++ odd) ++ rest), starts front.length (ids.map fun id => be16 id.toNat)⟩
      ca.caInfoCallback slotId sessionNumber (.info ids.length front.length) status

/-- The callback gets the reply with its entries, each of whose PIDs is swapped once; its iterators show exactly these
entries. -/
def ReplyHandedOn (front body rest : List UInt8) (o : CaOutcome) : Prop :=
  ∃ (reply : PmtReply) (left : List UInt8), body = reply.bytes be16 ++ left ∧ left.length < 3 ∧
    o = .tell ⟨front ++ ((reply.bytes le16 ++ left) ++ rest),
        front.length :: starts (front.length + 4) (reply.streams.map (PmtReplyStream.bytes be16))⟩
      ca.caPmtReplyCallback slotId sessionNumber (.pmtReply front.length body.length) status ∧
    Enumerates (front ++ ((reply.bytes le16 ++ left) ++ rest))
      (some (pmtReplyStreamsFirst front.length body.length))
      (fun pos => some (pmtReplyStreamsNext front.length body.length pos))
      (front.length + 4) (reply.streams.map (PmtReplyStream.bytes le16))

def LeavesRest (buffer : List UInt8) (o : CaOutcome) : Prop :=
  (∀ field body rest, StandsObject tagCaInfo buffer field body rest →
    KeepsRest (tagBytes tagCaInfo ++ field) body rest o) ∧
  (∀ field body rest, StandsObject tagCaPmtReply buffer field body rest → 4 ≤ body.length →
    KeepsRest (tagBytes tagCaPmtReply ++ field) body rest o) ∧
  (¬ Taken buffer → ∃ refusal, o = .refuse ⟨buffer, []⟩ refusal)

/-- What is asked of a message: an object is handed on as it is, and nothing else is done to the buffer. -/
def HandsOn (buffer : List UInt8) (o : CaOutcome) : Prop :=
  LeavesRest buffer o ∧
  (∀ field body rest, StandsObject tagCaInfo buffer field body rest →
    InfoHandedOn ca slotId sessionNumber status (tagBytes tagCaInfo ++ field) body rest o) ∧
  (∀ field body rest, StandsObject tagCaPmtReply buffer field body rest → 4 ≤ body.length →
    ReplyHandedOn ca slotId sessionNumber status (tagBytes tagCaPmtReply ++ field) body rest o)

end Asked

section Loops

theorem swapIds_ids (ids : List UInt16) (front rest : List UInt8) (swaps : List Nat) :
    CaBuffer.swapIds front.length ids.length ⟨front ++ (idBytes be16 ids ++ rest), swaps⟩ =
      some ⟨front ++ (idBytes le16 ids ++ rest), swaps ++ starts front.length (ids.map fun id => be16 id.toNat)⟩ := by
  induction ids generalizing front swaps with
  | nil =>
    rw [map_nil,starts,append_nil]
    rfl
  | cons id ids ih =>
    have hnext := ih (front ++ le16 id.toNat) (swaps ++ [front.length])
    have hlength : (front ++ le16 id.toNat).length = front.length + 2 := by
      rw [length_append,length_le16]
    rw [hlength,append_assoc,append_assoc] at hnext
    have hbytes : ∀ word : Nat → List UInt8, idBytes word (id :: ids) = word id.toNat ++ idBytes word ids :=
      fun _ => flatMap_cons
    rw [length_cons,CaBuffer.swapIds,CaBuffer.bswap16,hbytes,hbytes,append_assoc,bswap16_be16]
    simp only [map_some,bind_eq_bind,bind_some]
    rw [hnext,map_cons,starts,length_be16,append_assoc]
    rfl

theorem swapPids_streams (streams : List PmtReplyStream) (front rest : List UInt8) (swaps : List Nat)
    {data pos asnDataLength : Nat} (hfront : front.length = data + pos)
    (hend : pos + 3 * streams.length ≤ asnDataLength) :
    CaBuffer.swapPids data pos asnDataLength
        ⟨front ++ (streams.flatMap (PmtReplyStream.bytes be16) ++ rest), swaps⟩ =
      CaBuffer.swapPids data (pos + 3 * streams.length) asnDataLength
        ⟨front ++ (streams.flatMap (PmtReplyStream.bytes le16) ++ rest),
          swaps ++ starts front.length (streams.map (PmtReplyStream.bytes be16))⟩ := by
  induction streams generalizing front swaps pos with
  | nil =>
    rw [map_nil,starts,append_nil]
    rfl
  | cons s streams ih =>
    rw [length_cons] at hend
    have hlength : (front ++ s.bytes le16).length = front.length + 3 := by
      rw [length_append]
      rfl
    have hfront' : (front ++ s.bytes le16).length = data + (pos + 3) := by omega
    have hend' : pos + 3 + 3 * streams.length ≤ asnDataLength := by omega
    have hnext := ih (front ++ s.bytes le16) (swaps ++ [front.length]) hfront' hend'
    rw [hlength,append_assoc,append_assoc] at hnext
    have hbytes : ∀ word : Nat → List UInt8, (s :: streams).flatMap (PmtReplyStream.bytes word) ++ rest =
        word s.esPid.toNat ++ (s.caEnable :: (streams.flatMap (PmtReplyStream.bytes word) ++ rest)) := by
      intro word
      rw [flatMap_cons,PmtReplyStream.bytes,append_assoc,append_assoc]
      rfl
    have hle : front ++ (le16 s.esPid.toNat ++ (s.caEnable :: (streams.flatMap (PmtReplyStream.bytes be16) ++ rest))) =
        front ++ (s.bytes le16 ++ (streams.flatMap (PmtReplyStream.bytes be16) ++ rest)) := rfl
    rw [CaBuffer.swapPids,if_pos (by omega),CaBuffer.bswap16,← hfront,hbytes,hbytes,bswap16_be16]
    simp only [map_some,bind_eq_bind,bind_some]
    rw [hle,hnext,length_cons,map_cons,starts,append_assoc,Nat.add_right_comm pos 3]
    rfl

theorem swapPids_left {data pos asnDataLength : Nat} (buffer : CaBuffer) (hleft : asnDataLength - pos < 3) :
    CaBuffer.swapPids data pos asnDataLength buffer =
      if asnDataLength ≤ pos then some buffer else buffer.bswap16 (data + pos) := by
  rw [CaBuffer.swapPids]
  by_cases hend : asnDataLength ≤ pos
  · rw [if_neg (by omega),if_pos hend]
  · rw [if_pos (by omega),if_neg hend]
    cases buffer.bswap16 (data + pos) with
    | none => rfl
    | some swapped =>
      simp only [bind_eq_bind,bind_some]
      rw [CaBuffer.swapPids,if_neg (by omega)]

end Loops

section Parts

theorem exists_ids : ∀ body : List UInt8, ∃ ids odd, body = idBytes be16 ids ++ odd ∧ odd.length < 2
  | [] => ⟨[], [], rfl, by decide⟩
  | [b] => ⟨[], [b], rfl, by simp⟩
  | a :: b :: body => by
    obtain ⟨ids, odd, hbody, hodd⟩ := exists_ids body
    obtain ⟨id, hid⟩ := exists_uint16 a b
    refine ⟨id :: ids, odd, ?_, hodd⟩
    have hbytes : idBytes be16 (id :: ids) = be16 id.toNat ++ idBytes be16 ids := flatMap_cons
    rw [hbytes,← hid,hbody]
    rfl

theorem exists_streams : ∀ table : List UInt8, ∃ (streams : List PmtReplyStream) (left : List UInt8),
    table = streams.flatMap (PmtReplyStream.bytes be16) ++ left ∧ left.length < 3
  | [] => ⟨[], [], rfl, by decide⟩
  | [b] => ⟨[], [b], rfl, by simp⟩
  | [a, b] => ⟨[], [a, b], rfl, by simp⟩
  | a :: b :: c :: table => by
    obtain ⟨streams, left, htable, hleft⟩ := exists_streams table
    obtain ⟨esPid, hword⟩ := exists_uint16 a b
    refine ⟨⟨esPid, c⟩ :: streams, left, ?_, hleft⟩
    rw [flatMap_cons,PmtReplyStream.bytes,← hword,htable]
    rfl

theorem exists_reply {body : List UInt8} (h : 4 ≤ body.length) :
    ∃ (reply : PmtReply) (left : List UInt8), body = reply.bytes be16 ++ left ∧ left.length < 3 := by
  match body, h with
  | a :: b :: version :: caEnable :: table, _ =>
    obtain ⟨streams,left,htable,hleft⟩ := exists_streams table
    obtain ⟨programNumber,hword⟩ := exists_uint16 a b
    refine ⟨⟨programNumber,version,caEnable,streams⟩,left,?_,hleft⟩
    rw [PmtReply.bytes,PmtReply.header,← hword,htable]
    rfl

variable {word : Nat → List UInt8} (hword : ∀ n, (word n).length = 2)

include hword

theorem length_idBytes (ids : List UInt16) : (idBytes word ids).length = 2 * ids.length := by
  induction ids with
  | nil => rfl
  | cons id ids ih =>
    have hbytes : idBytes word (id :: ids) = word id.toNat ++ idBytes word ids := flatMap_cons
    rw [hbytes,length_append,hword,ih,length_cons]
    omega

theorem length_replyStreamBytes (s : PmtReplyStream) : (s.bytes word).length = 3 := by
  rw [PmtReplyStream.bytes,length_append,hword]
  rfl

theorem length_replyStreams (streams : List PmtReplyStream) :
    (streams.flatMap (PmtReplyStream.bytes word)).length = 3 * streams.length := by
  induction streams with
  | nil => rfl
  | cons s streams ih =>
    rw [flatMap_cons,length_append,length_replyStreamBytes hword,ih,length_cons]
    omega

theorem length_reply (r : PmtReply) : (r.bytes word).length = 4 + 3 * r.streams.length := by
  rw [PmtReply.bytes,PmtReply.header,length_append,length_append,hword,length_replyStreams hword]
  rfl

end Parts

section Info

variable {ca : Ca} {slotId : UInt8} {sessionNumber : UInt16} {status : Int} {buffer field body rest : List UInt8}

theorem StandsObject.drop_tag {tag : Nat} (h : StandsObject tag buffer field body rest) :
    buffer.drop 3 = field ++ (body ++ rest) := by
  rw [h.eq,append_assoc]
  rfl

theorem StandsObject.fits {tag : Nat} (h : StandsObject tag buffer field body rest) :
    ¬ body.length > (buffer.drop 3).length - field.length := by
  rw [h.drop_tag,length_append,length_append]
  omega

theorem caMessage_info (h : StandsObject tagCaInfo buffer field body rest) :
    InfoHandedOn ca slotId sessionNumber status (tagBytes tagCaInfo ++ field) body rest
      (caMessage ca slotId sessionNumber buffer status) := by
  obtain ⟨ids,odd,hbody,hodd⟩ := exists_ids body
  have htag : takeTag buffer = some (tagCaInfo, field ++ (body ++ rest)) := by
    rw [h.eq,append_assoc]
    rfl
  have hlength : decodeLength (buffer.drop 3) = some (field.length, body.length) := by
    rw [h.drop_tag,h.length]
  have hcount : body.length / 2 = ids.length := by
    rw [hbody,length_append,length_idBytes length_be16]
    omega
  have hfront : (tagBytes tagCaInfo ++ field).length = 3 + field.length := length_append
  have hswap := swapIds_ids ids (tagBytes tagCaInfo ++ field) (odd ++ rest) []
  have hbuffer : (tagBytes tagCaInfo ++ field) ++ (idBytes be16 ids ++ (odd ++ rest)) = buffer := by
    rw [h.eq,hbody,append_assoc (idBytes be16 ids)]
  rw [hbuffer,hfront] at hswap
  refine ⟨ids,odd,hbody,hodd,?_⟩
  rw [caMessage,htag]
  simp only [if_true]
  rw [caParseInfo,hlength]
  simp only []
  rw [if_neg h.fits,hcount,hswap,hfront,append_assoc (idBytes le16 ids)]
  rfl

theorem tell_eq {σ α : Type} (s : σ) (callback : Option Nat) (slotId : UInt8) (sessionNumber : UInt16) (args : α)
    (status : Int) : ∃ ret events, AppOutcome.tell s callback slotId sessionNumber args status =
      .returned s ret events := by
  cases callback with
  | none => exact ⟨_,_,rfl⟩
  | some cb => exact ⟨_,_,rfl⟩

theorem swapped_of_tell {σ α : Type} {s s' : σ} {callback : Option Nat} {args : α} {ret : Int}
    {events : List (AppEvent α)}
    (h : AppOutcome.tell s callback slotId sessionNumber args status = .returned s' ret events) : s = s' := by
  cases callback with
  | none =>
    cases h
    rfl
  | some cb =>
    cases h
    rfl

theorem swaps_bswap16 {swapped swapped' : CaBuffer} {data : Nat} (h : swapped.bswap16 data = some swapped') :
    swapped'.swaps = swapped.swaps ++ [data] := by
  rw [CaBuffer.bswap16,map_eq_some_iff] at h
  obtain ⟨bytes,-,rfl⟩ := h
  rfl

theorem keepsRest_of_tell {front body host rest : List UInt8} {swaps : List Nat} {callback : Option Nat} {args : CaArgs}
    (hhost : host.length = body.length)
    (hswaps : ∀ pos ∈ swaps, front.length ≤ pos ∧ pos + 2 ≤ front.length + body.length) :
    KeepsRest front body rest
      (.tell ⟨front ++ (host ++ rest), swaps⟩ callback slotId sessionNumber args status) := by
  obtain ⟨ret,events,htell⟩ := tell_eq (⟨front ++ (host ++ rest),swaps⟩ : CaBuffer) callback slotId sessionNumber args
    status
  exact ⟨_,ret,events,htell,⟨host,hhost,rfl⟩,hswaps⟩

theorem InfoHandedOn.keepsRest {front : List UInt8} {o : CaOutcome}
    (h : InfoHandedOn ca slotId sessionNumber status front body rest o) : KeepsRest front body rest o := by
  obtain ⟨ids,odd,hbody,-,rfl⟩ := h
  have hlength : (idBytes be16 ids).length = (idBytes le16 ids).length := by
    rw [length_idBytes length_be16,length_idBytes length_le16]
  apply keepsRest_of_tell
  · rw [hbody,length_append,length_append,hlength]
  · intro pos hpos
    have hwithin := starts_within (by simp) hpos
    have hflat : (ids.map fun id => be16 id.toNat).flatten = idBytes be16 ids := rfl
    rw [hflat] at hwithin
    rw [hbody,length_append]
    omega

end Info

section Reply

variable {ca : Ca} {slotId : UInt8} {sessionNumber : UInt16} {status : Int} {buffer field body rest : List UInt8}

def handledReply (front rest : List UInt8) (reply : PmtReply) (left : List UInt8) : CaBuffer :=
  ⟨front ++ ((reply.bytes le16 ++ left) ++ rest),
    front.length :: starts (front.length + 4) (reply.streams.map (PmtReplyStream.bytes be16))⟩

theorem swapReply (front rest left : List UInt8) (reply : PmtReply) (hleft : left.length < 3) :
    (CaBuffer.bswap16 ⟨front ++ ((reply.bytes be16 ++ left) ++ rest), []⟩ front.length).bind
        (CaBuffer.swapPids front.length 4 (reply.bytes be16 ++ left).length) =
      if left = [] then some (handledReply front rest reply left)
      else (handledReply front rest reply left).bswap16 (front.length + (4 + 3 * reply.streams.length)) := by
  have hparts : ∀ word : Nat → List UInt8, front ++ ((reply.bytes word ++ left) ++ rest) =
      front ++ (word reply.programNumber.toNat ++ ([reply.version, reply.caEnable] ++
        (reply.streams.flatMap (PmtReplyStream.bytes word) ++ (left ++ rest)))) := by
    intro word
    simp only [PmtReply.bytes,PmtReply.header,append_assoc]
  have hheader : ∀ behind, front ++ (le16 reply.programNumber.toNat ++ ([reply.version, reply.caEnable] ++ behind)) =
      (front ++ reply.header le16) ++ behind := by
    intro behind
    simp only [PmtReply.header,append_assoc]
  have hfront : (front ++ reply.header le16).length = front.length + 4 := by
    rw [length_append]
    rfl
  have hbody : (reply.bytes be16 ++ left).length = 4 + 3 * reply.streams.length + left.length := by
    rw [length_append,length_reply length_be16]
  have hloop := swapPids_streams reply.streams (front ++ reply.header le16) (left ++ rest) [front.length] hfront
    (show 4 + 3 * reply.streams.length ≤ (reply.bytes be16 ++ left).length by omega)
  have hhandled : (⟨(front ++ reply.header le16) ++ (reply.streams.flatMap (PmtReplyStream.bytes le16) ++ (left ++ rest)),
      [front.length] ++ starts (front ++ reply.header le16).length (reply.streams.map (PmtReplyStream.bytes be16))⟩ :
        CaBuffer) = handledReply front rest reply left := by
    rw [← hheader,← hparts,hfront]
    rfl
  rw [hparts,CaBuffer.bswap16,bswap16_be16,hheader]
  simp only [map_some,bind_some,nil_append]
  rw [hloop,hhandled,swapPids_left _ (by omega)]
  by_cases hnil : left = []
  · rw [if_pos hnil,if_pos (by rw [hbody, hnil]; exact Nat.le_refl _)]
  · have hpos := length_pos_iff.mpr hnil
    rw [if_neg hnil,if_neg (by omega)]

theorem caMessage_reply (h : StandsObject tagCaPmtReply buffer field body rest) {reply : PmtReply} {left : List UInt8}
    (hbody : body = reply.bytes be16 ++ left) (hleft : left.length < 3) :
    caMessage ca slotId sessionNumber buffer status =
      Option.elim (if left = [] then some (handledReply (tagBytes tagCaPmtReply ++ field) rest reply left)
          else (handledReply (tagBytes tagCaPmtReply ++ field) rest reply left).bswap16
            ((tagBytes tagCaPmtReply ++ field).length + (4 + 3 * reply.streams.length)))
        .undefined fun swapped => .tell swapped ca.caPmtReplyCallback slotId sessionNumber
          (.pmtReply (tagBytes tagCaPmtReply ++ field).length body.length) status := by
  have htag : takeTag buffer = some (tagCaPmtReply, field ++ (body ++ rest)) := by
    rw [h.eq,append_assoc]
    rfl
  have hlength : decodeLength (buffer.drop 3) = some (field.length, body.length) := by
    rw [h.drop_tag,h.length]
  have hfour : ¬ body.length < 4 := by
    rw [hbody,length_append,length_reply length_be16]
    omega
  have hfront : (tagBytes tagCaPmtReply ++ field).length = 3 + field.length := length_append
  have hswap := swapReply (tagBytes tagCaPmtReply ++ field) rest left reply hleft
  rw [← hbody,← h.eq] at hswap
  rw [caMessage,htag]
  simp only []
  rw [if_neg (by decide),if_pos trivial,caParseReply,hlength]
  simp only []
  rw [if_neg hfour,if_neg h.fits,← hfront,hswap]
  generalize (if left = [] then _ else _ : Option CaBuffer) = swapped
  cases swapped with
  | none => rfl
  | some swapped => rfl

theorem replySwaps_within {front : List UInt8} {reply : PmtReply} {pos : Nat}
    (hpos : pos ∈ front.length :: starts (front.length + 4) (reply.streams.map (PmtReplyStream.bytes be16))) :
    front.length ≤ pos ∧ pos + 2 ≤ front.length + (reply.bytes be16).length := by
  have hlength := length_reply length_be16 reply
  rw [mem_cons] at hpos
  cases hpos with
  | inl heq => omega
  | inr hstarts =>
    have hmin : ∀ item ∈ reply.streams.map (PmtReplyStream.bytes be16), 2 ≤ item.length := by
      intro item hitem
      obtain ⟨s,-,rfl⟩ := mem_map.mp hitem
      rw [length_replyStreamBytes length_be16]
      decide
    have hwithin := starts_within hmin hstarts
    have hflat : (reply.streams.map (PmtReplyStream.bytes be16)).flatten.length = 3 * reply.streams.length :=
      length_replyStreams length_be16 reply.streams
    omega

theorem handledReply_bswap16 {front : List UInt8} {reply : PmtReply} (a b : UInt8) :
    (handledReply front rest reply [a, b]).bswap16 (front.length + (4 + 3 * reply.streams.length)) =
      some ⟨front ++ ((reply.bytes le16 ++ [b, a]) ++ rest), (handledReply front rest reply [a, b]).swaps ++
        [front.length + (4 + 3 * reply.streams.length)]⟩ := by
  have hpos : front.length + (4 + 3 * reply.streams.length) = (front ++ reply.bytes le16).length + 0 := by
    rw [length_append,length_reply length_le16]
    rfl
  have hbytes : (handledReply front rest reply [a, b]).bytes = (front ++ reply.bytes le16) ++ (a :: b :: rest) := by
    simp only [handledReply,append_assoc,cons_append,nil_append]
  rw [CaBuffer.bswap16,hbytes,hpos,bswap16_behind]
  simp [bswap16]

theorem keepsRest_reply_iff (h : StandsObject tagCaPmtReply buffer field body rest) {reply : PmtReply}
    {left : List UInt8} (hbody : body = reply.bytes be16 ++ left) (hleft : left.length < 3) :
    KeepsRest (tagBytes tagCaPmtReply ++ field) body rest (caMessage ca slotId sessionNumber buffer status) ↔
      left.length ≠ 1 := by
  have hlength : body.length = (reply.bytes be16).length + left.length := by rw [hbody,length_append]
  have hsame : (reply.bytes le16).length = (reply.bytes be16).length := by
    rw [length_reply length_be16,length_reply length_le16]
  rw [caMessage_reply h hbody hleft]
  match left, hleft with
  | [], _ =>
    refine iff_of_true ?_ (by simp)
    rw [if_pos rfl]
    refine keepsRest_of_tell ?_ fun pos hpos => ?_
    · rw [append_nil,hsame,hlength]
      rfl
    · have hwithin := replySwaps_within hpos
      omega
  | [a], _ =>
    refine iff_of_false ?_ (by simp)
    rw [if_neg (cons_ne_nil _ _)]
    cases hswap : (handledReply (tagBytes tagCaPmtReply ++ field) rest reply [a]).bswap16
        ((tagBytes tagCaPmtReply ++ field).length + (4 + 3 * reply.streams.length)) with
    | none =>
      rintro ⟨swapped,ret,events,hreturned,-⟩
      cases hreturned
    | some swapped =>
      rintro ⟨swapped',ret,events,hreturned,-,hswaps⟩
      have hsame := swapped_of_tell hreturned
      subst hsame
      have hreply := length_reply length_be16 reply
      have hone : [a].length = 1 := rfl
      have hlast := hswaps ((tagBytes tagCaPmtReply ++ field).length + (4 + 3 * reply.streams.length))
        (by rw [swaps_bswap16 hswap]; exact mem_append_right _ (mem_singleton_self _))
      omega
  | [a, b], _ =>
    refine iff_of_true ?_ (by simp)
    rw [if_neg (cons_ne_nil _ _),handledReply_bswap16]
    refine keepsRest_of_tell ?_ fun pos hpos => ?_
    · rw [length_append,hsame,hlength]
      rfl
    · have htwo : [a, b].length = 2 := rfl
      have hreply := length_reply length_be16 reply
      rw [mem_append,mem_singleton] at hpos
      cases hpos with
      | inl hpos =>
        have hwithin := replySwaps_within hpos
        omega
      | inr heq => omega

theorem tell_inj {σ α : Type} {s s' : σ} {callback : Option Nat} {args args' : α}
    (h : AppOutcome.tell s callback slotId sessionNumber args status =
      .tell s' callback slotId sessionNumber args' status) : s = s' := by
  obtain ⟨ret,events,htell⟩ := tell_eq s' callback slotId sessionNumber args' status
  exact swapped_of_tell (h.trans htell)

theorem enumerates_streams (front rest : List UInt8) (reply : PmtReply) :
    Enumerates (front ++ (reply.bytes le16 ++ rest))
      (some (pmtReplyStreamsFirst front.length (4 + 3 * reply.streams.length)))
      (fun pos => some (pmtReplyStreamsNext front.length (4 + 3 * reply.streams.length) pos))
      (front.length + 4) (reply.streams.map (PmtReplyStream.bytes le16)) := by
  have hflat : (reply.streams.map (PmtReplyStream.bytes le16)).flatten.length = 3 * reply.streams.length :=
    length_replyStreams length_le16 reply.streams
  have hfirst : pmtReplyStreamsFirst front.length (4 + 3 * reply.streams.length) =
      if reply.streams.map (PmtReplyStream.bytes le16) = [] then none else some (front.length + 4) := by
    rw [pmtReplyStreamsFirst,sizeofPmtReply]
    cases reply.streams with
    | nil => rfl
    | cons s streams =>
      rw [map_cons,if_neg (cons_ne_nil _ _),length_cons,if_neg (by omega)]
  constructor
  · refine ⟨front ++ reply.header le16,rest,?_,?_⟩
    · rw [PmtReply.bytes,append_assoc,append_assoc]
      rfl
    · rw [length_append]
      rfl
  · refine ⟨_,rfl,?_⟩
    rw [hfirst]
    apply visits_starts
    · intro item hitem
      obtain ⟨s,-,rfl⟩ := mem_map.mp hitem
      exact List.ne_nil_of_length_pos (by rw [length_replyStreamBytes length_le16]; decide)
    · rw [hflat,Nat.add_assoc]
    · intro pos item hitem
      obtain ⟨s,-,rfl⟩ := mem_map.mp (List.of_mem_zip hitem).2
      rw [length_replyStreamBytes length_le16]
      rfl

theorem replyHandedOn_iff (h : StandsObject tagCaPmtReply buffer field body rest) {reply : PmtReply}
    {left : List UInt8} (hbody : body = reply.bytes be16 ++ left) (hleft : left.length < 3) :
    ReplyHandedOn ca slotId sessionNumber status (tagBytes tagCaPmtReply ++ field) body rest
      (caMessage ca slotId sessionNumber buffer status) ↔ left = [] := by
  have hreply := length_reply length_be16 reply
  have hlength : body.length = (reply.bytes be16).length + left.length := by rw [hbody,length_append]
  rw [caMessage_reply h hbody hleft]
  constructor
  · rintro ⟨reply',left',hbody',hleft',htold,-⟩
    by_contra hne
    have hreply' := length_reply length_be16 reply'
    have hlength' : body.length = (reply'.bytes be16).length + left'.length := by rw [hbody',length_append]
    rw [if_neg hne] at htold
    cases hswap : (handledReply (tagBytes tagCaPmtReply ++ field) rest reply left).bswap16
        ((tagBytes tagCaPmtReply ++ field).length + (4 + 3 * reply.streams.length)) with
    | none =>
      rw [hswap] at htold
      obtain ⟨ret,events,htell⟩ := tell_eq (⟨(tagBytes tagCaPmtReply ++ field) ++ ((reply'.bytes le16 ++ left') ++ rest),
        (tagBytes tagCaPmtReply ++ field).length :: starts ((tagBytes tagCaPmtReply ++ field).length + 4)
          (reply'.streams.map (PmtReplyStream.bytes be16))⟩ : CaBuffer) ca.caPmtReplyCallback slotId sessionNumber
          (CaArgs.pmtReply (tagBytes tagCaPmtReply ++ field).length body.length) status
      rw [htell] at htold
      cases htold
    | some swapped =>
      rw [hswap] at htold
      have hsame := tell_inj htold
      subst hsame
      -- one more swap than there are entries
      have hcount := congrArg List.length (swaps_bswap16 hswap)
      simp only [handledReply,length_append,length_cons,length_starts,length_map,
        length_nil] at hcount
      omega
  · rintro rfl
    refine ⟨reply,[],hbody,by decide,?_,?_⟩
    · rw [if_pos rfl]
      rfl
    · have hsize : body.length = 4 + 3 * reply.streams.length := by rw [hlength,hreply]; rfl
      rw [append_nil,hsize]
      exact enumerates_streams _ rest reply

end Reply

section Refused

variable {ca : Ca} {slotId : UInt8} {sessionNumber : UInt16} {status : Int} {buffer : List UInt8}

theorem standsObject_of_decode {b₁ b₂ b₃ : UInt8} {data : List UInt8} {tag used length : Nat}
    (htag : b₁.toNat <<< 16 ||| b₂.toNat <<< 8 ||| b₃.toNat = tag) (hdecode : decodeLength data = some (used, length))
    (hfits : length ≤ data.length - used) :
    ∃ field body rest, StandsObject tag (b₁ :: b₂ :: b₃ :: data) field body rest ∧ body.length = length := by
  have hused : used ≤ data.length := by
    obtain hnone | ⟨used',length',hsome,-,hle⟩ := asn1Decode_inside data
    · rw [decodeLength,hnone] at hdecode
      cases hdecode
    · rw [decodeLength,hsome] at hdecode
      cases hdecode
      exact hle
  have hbody : ((data.drop used).take length).length = length := by
    rw [length_take,length_drop,Nat.min_eq_left hfits]
  have hparts : data.take used ++ ((data.drop used).take length ++ (data.drop used).drop length) = data := by
    rw [take_append_drop,take_append_drop]
  refine ⟨data.take used,(data.drop used).take length,(data.drop used).drop length,⟨?_,?_⟩,hbody⟩
  · rw [← eq_tagBytes htag,append_assoc,hparts]
    rfl
  · rw [hparts,hdecode,hbody,length_take,Nat.min_eq_left hused]

theorem caMessage_refused (h : ¬ Taken buffer) :
    ∃ refusal, caMessage ca slotId sessionNumber buffer status = .refuse ⟨buffer, []⟩ refusal := by
  rw [caMessage]
  match buffer with
  | [] | [_] | [_, _] => exact ⟨_,rfl⟩
  | b₁ :: b₂ :: b₃ :: data =>
    simp only [takeTag]
    split
    case isTrue htag =>
      rw [caParseInfo]
      cases hdecode : decodeLength ((b₁ :: b₂ :: b₃ :: data).drop 3) with
      | none => exact ⟨_,rfl⟩
      | some p =>
        simp only []
        split
        case isTrue => exact ⟨_,rfl⟩
        case isFalse hfits =>
          obtain ⟨field,body,rest,hstands,-⟩ := standsObject_of_decode htag hdecode (Nat.not_lt.mp hfits)
          exact absurd ⟨field,body,rest,Or.inl hstands⟩ h
    case isFalse =>
      split
      case isTrue htag =>
        rw [caParseReply]
        cases hdecode : decodeLength ((b₁ :: b₂ :: b₃ :: data).drop 3) with
        | none => exact ⟨_,rfl⟩
        | some p =>
          simp only []
          split
          case isTrue => exact ⟨_,rfl⟩
          case isFalse hfour =>
            split
            case isTrue => exact ⟨_,rfl⟩
            case isFalse hfits =>
              obtain ⟨field,body,rest,hstands,hlength⟩ :=
                standsObject_of_decode htag hdecode (Nat.not_lt.mp hfits)
              exact absurd ⟨field,body,rest,Or.inr ⟨hstands,by omega⟩⟩ h
      case isFalse => exact ⟨_,rfl⟩

end Refused

/-- What is behind a reply stays as it is exactly if not one single byte is left behind its last entry; it is handed on
as it is exactly if none is left. -/
theorem caMessage_handsOn_iff (ca : Ca) (slotId : UInt8) (sessionNumber : UInt16) (buffer : List UInt8) (status : Int) :
    (LeavesRest buffer (caMessage ca slotId sessionNumber buffer status) ↔
      ∀ field body rest, StandsObject tagCaPmtReply buffer field body rest → 4 ≤ body.length →
        (body.length - 4) % 3 ≠ 1) ∧
    (HandsOn ca slotId sessionNumber status buffer (caMessage ca slotId sessionNumber buffer status) ↔
      ∀ field body rest, StandsObject tagCaPmtReply buffer field body rest → 4 ≤ body.length →
        (body.length - 4) % 3 = 0) := by
  have hinfo : ∀ field body rest, StandsObject tagCaInfo buffer field body rest →
      InfoHandedOn ca slotId sessionNumber status (tagBytes tagCaInfo ++ field) body rest
        (caMessage ca slotId sessionNumber buffer status) := fun _ _ _ h => caMessage_info h
  have hparts : ∀ body : List UInt8, 4 ≤ body.length → ∃ (reply : PmtReply) (left : List UInt8),
      body = reply.bytes be16 ++ left ∧ left.length < 3 ∧ (body.length - 4) % 3 = left.length := by
    intro body hfour
    obtain ⟨reply, left, hbody, hleft⟩ := exists_reply hfour
    have hlength : body.length = 4 + 3 * reply.streams.length + left.length := by
      rw [hbody, List.length_append, length_reply length_be16]
    exact ⟨reply, left, hbody, hleft, by omega⟩
  have hleaves : LeavesRest buffer (caMessage ca slotId sessionNumber buffer status) ↔
      ∀ field body rest, StandsObject tagCaPmtReply buffer field body rest → 4 ≤ body.length →
        (body.length - 4) % 3 ≠ 1 := by
    constructor
    · intro ⟨_, hreply, _⟩ field body rest hstands hfour
      obtain ⟨reply, left, hbody, hleft, hmod⟩ := hparts body hfour
      rw [hmod]
      exact (keepsRest_reply_iff hstands hbody hleft).mp (hreply field body rest hstands hfour)
    · intro h
      refine ⟨fun field body rest hstands => (hinfo field body rest hstands).keepsRest,
        fun field body rest hstands hfour => ?_, caMessage_refused⟩
      obtain ⟨reply, left, hbody, hleft, hmod⟩ := hparts body hfour
      exact (keepsRest_reply_iff hstands hbody hleft).mpr (hmod ▸ h field body rest hstands hfour)
  refine ⟨hleaves, ?_⟩
  constructor
  · intro ⟨_, _, hreply⟩ field body rest hstands hfour
    obtain ⟨reply, left, hbody, hleft, hmod⟩ := hparts body hfour
    rw [hmod, (replyHandedOn_iff hstands hbody hleft).mp (hreply field body rest hstands hfour)]
    rfl
  · intro h
    refine ⟨hleaves.mpr fun field body rest hstands hfour => ?_, hinfo, fun field body rest hstands hfour => ?_⟩
    · rw [h field body rest hstands hfour]
      decide
    · obtain ⟨reply, left, hbody, hleft, hmod⟩ := hparts body hfour
      have hnil := h field body rest hstands hfour
      rw [hmod] at hnil
      exact (replyHandedOn_iff hstands hbody hleft).mpr (List.eq_nil_of_length_eq_zero hnil)

section Stray

def strayReply : List UInt8 := [0x9f, 0x80, 0x33, 5, 0x00, 0x01, 0x02, 0x81, 0xe0, 0x9f]

/-- The byte behind the reply is swapped into it. -/
theorem strayReply_not_handsOn :
    ¬ HandsOn ⟨none, some 1⟩ 0 1 0 strayReply (caMessage ⟨none, some 1⟩ 0 1 strayReply 0) := by
  rintro ⟨⟨-, hreply, -⟩, -⟩
  have hstands : StandsObject tagCaPmtReply strayReply [5] [0x00, 0x01, 0x02, 0x81, 0xe0] [0x9f] := ⟨rfl, rfl⟩
  have hbody : [0x00, 0x01, 0x02, 0x81, 0xe0] = PmtReply.bytes be16 ⟨1, 0x02, 0x81, []⟩ ++ [0xe0] := rfl
  exact (keepsRest_reply_iff hstands hbody (by decide)).mp (hreply _ _ _ hstands (by decide)) rfl

end Stray

end LinuxDvb.En50221
