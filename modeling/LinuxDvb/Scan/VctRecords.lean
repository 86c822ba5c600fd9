import LinuxDvb.Scan.VctReading

/-!
# The channels that scan records

A channel that is neither television nor radio nor analog stops the walk of `parse_psip_vct`: it goes on, but its
pointer stays.
-/

namespace LinuxDvb.Scan.Tables

/-! ## What is to be recorded -/

namespace VctChannel

def Recordable (c : VctChannel) : Prop := c.serviceType = 1 ∨ c.serviceType = 2 ∨ c.serviceType = 3

def TvRadio (c : VctChannel) : Prop := c.serviceType = 2 ∨ c.serviceType = 3

instance (c : VctChannel) : Decidable c.Recordable := inferInstanceAs (Decidable (_ ∨ _))

def record (c : VctChannel) (s : Service) : Service :=
  let s := { s with serviceName := some (c.shortName.map fun u => UInt8.ofNat u.toNat) }
  let s := c.descriptors.foldl (fun s d => d.record s) s
  { s with
    channelNum := c.major <<< 10 ||| c.minor
    running := if c.hidden then rmNotRunning else rmRunning }

/-- The name ends inside its memory: there is a letter left of the short name, or a longer name instead. -/
def Terminated (c : VctChannel) : Prop :=
  (∃ u ∈ c.shortName, UInt8.ofNat u.toNat = 0) ∨
    ∃ d ∈ c.descriptors, ∃ strings, d.content = .extendedName strings ∧
      ∃ t ∈ strings, ∃ g ∈ t.segments, g.compType = 0

/-- A service with number `id` holds what the channel says, with a name that ends. -/
def Recorded (c : VctChannel) (id : Nat) (tp : Services) : Prop :=
  ∃ s ∈ tp.services, s.serviceId = id ∧ (∃ old, s = c.record old) ∧ ∃ name, s.serviceName = some name ∧ 0 ∈ name

def number (c : VctChannel) (pseudoId : Nat) : Nat × Nat := takeNumber c.programNumber.toNat pseudoId

end VctChannel

def numbered : Nat → List VctChannel → List (VctChannel × Nat)
  | _, [] => []
  | pseudoId, c :: cs =>
    if c.Recordable then (c, (c.number pseudoId).1) :: numbered (c.number pseudoId).2 cs else numbered pseudoId cs

def OwnNumbers (channels : List VctChannel) : Prop :=
  (numbered 0xffff channels).Pairwise fun a b => a.1.TvRadio ∨ b.1.TvRadio → a.2 ≠ b.2

/-! ## Names -/

section Names

variable {s : Service}

def Service.NameEnds (s : Service) : Prop := ∃ name, s.serviceName = some name ∧ 0 ∈ name

theorem nameEnds_segments (gs : List NameSegment) (s : Service) :
    (gs.foldl (fun s g => g.record s) s).NameEnds ↔ (∃ g ∈ gs, g.compType = 0) ∨ s.NameEnds := by
  induction gs generalizing s with
  | nil => simp
  | cons g gs ih =>
    rw [foldl_cons,ih,NameSegment.record,addSegment]
    by_cases hcomp : g.compType = 0
    · rw [if_pos hcomp]
      refine ⟨fun _ => Or.inl ⟨g,mem_cons_self,hcomp⟩,fun _ => Or.inr ⟨g.text ++ [0],rfl,?_⟩⟩
      exact mem_append_right _ (mem_singleton_self 0)
    · rw [if_neg hcomp]
      simp [hcomp]

theorem nameEnds_strings (ts : List NameString) (s : Service) :
    (ts.foldl (fun s t => t.record s) s).NameEnds ↔ (∃ t ∈ ts, ∃ g ∈ t.segments, g.compType = 0) ∨ s.NameEnds := by
  induction ts generalizing s with
  | nil => simp
  | cons t ts ih =>
    rw [foldl_cons,ih,NameString.record,nameEnds_segments,List.exists_mem_cons_iff,or_assoc]
    exact or_left_comm

theorem elements_keep (es : List LocationElement) (s : Service) :
    (es.foldl (fun s e => e.record s) s).serviceName = s.serviceName ∧
      (es.foldl (fun s e => e.record s) s).serviceId = s.serviceId := by
  induction es generalizing s with
  | nil => exact ⟨rfl,rfl⟩
  | cons e es ih =>
    have hone : (e.record s).serviceName = s.serviceName ∧ (e.record s).serviceId = s.serviceId := by
      rw [LocationElement.record,addElement]
      split
      · exact ⟨rfl,rfl⟩
      · split
        · exact ⟨rfl,rfl⟩
        · exact ⟨rfl,rfl⟩
    rw [foldl_cons,(ih _).1,(ih _).2]
    exact hone

theorem nameEnds_descriptors (ds : List VctDescriptor) (s : Service) : (ds.foldl (fun s d => d.record s) s).NameEnds ↔
      (∃ d ∈ ds, ∃ strings, d.content = .extendedName strings ∧ ∃ t ∈ strings, ∃ g ∈ t.segments, g.compType = 0) ∨
        s.NameEnds := by
  induction ds generalizing s with
  | nil => simp
  | cons d ds ih =>
    have hone : (d.record s).NameEnds ↔
        (∃ strings, d.content = .extendedName strings ∧ ∃ t ∈ strings, ∃ g ∈ t.segments, g.compType = 0) ∨
          s.NameEnds := by
      rw [VctDescriptor.record]
      cases d.content with
      | location reserved pcrPid elements hreserved hpid =>
        rw [VctContent.record,Service.NameEnds,(elements_keep _ _).1]
        simp [Service.NameEnds]
      | extendedName strings =>
        rw [VctContent.record,nameEnds_strings]
        simp
      | other tag data hlocation hname => simp [VctContent.record]
    rw [foldl_cons,ih,hone,List.exists_mem_cons_iff,or_assoc]
    exact or_left_comm

theorem VctChannel.nameEnds_record (c : VctChannel) (s : Service) : (c.record s).NameEnds ↔ c.Terminated := by
  have hfold := nameEnds_descriptors c.descriptors
    { s with serviceName := some (c.shortName.map fun u => UInt8.ofNat u.toNat) }
  have hshort : Service.NameEnds { s with serviceName := some (c.shortName.map fun u => UInt8.ofNat u.toNat) } ↔
      ∃ u ∈ c.shortName, UInt8.ofNat u.toNat = 0 := by
    simp [Service.NameEnds]
  rw [hshort] at hfold
  rw [VctChannel.Terminated,or_comm]
  exact hfold

end Names

/-! ## The walk -/

section Walk

variable {buf : Mem UInt8} {pos : Nat} {c : VctChannel} {channels : List VctChannel} {tp : Services}

theorem segments_serviceId (gs : List NameSegment) (s : Service) :
    (gs.foldl (fun s g => g.record s) s).serviceId = s.serviceId := by
  induction gs generalizing s with
  | nil => rfl
  | cons g gs ih =>
    rw [foldl_cons,ih,NameSegment.record,addSegment]
    split
    · rfl
    · rfl

theorem strings_serviceId (ts : List NameString) (s : Service) :
    (ts.foldl (fun s t => t.record s) s).serviceId = s.serviceId := by
  induction ts generalizing s with
  | nil => rfl
  | cons t ts ih => rw [foldl_cons,ih,NameString.record,segments_serviceId]

theorem descriptors_serviceId (ds : List VctDescriptor) (s : Service) :
    (ds.foldl (fun s d => d.record s) s).serviceId = s.serviceId := by
  induction ds generalizing s with
  | nil => rfl
  | cons d ds ih =>
    rw [foldl_cons,ih,VctDescriptor.record]
    cases d.content with
    | location reserved pcrPid elements hreserved hpid => exact (elements_keep elements _).2
    | extendedName strings => exact strings_serviceId strings s
    | other tag data hlocation hname => rfl

theorem record_serviceId (c : VctChannel) (s : Service) : (c.record s).serviceId = s.serviceId :=
  descriptors_serviceId c.descriptors _

theorem fillService_eq (c : VctChannel) (h : buf.slice pos c.bytes.length = c.bytes) (s : Service) :
    fillService buf pos c.fields s = c.record s := by
  have hdescriptors := (read_channel c h).2
  have hname : c.fields.shortName.map UInt8.ofNat = c.shortName.map fun u => UInt8.ofNat u.toNat := by
    rw [VctChannel.fields,map_map]
    rfl
  have hhidden : (if c.fields.hidden ≠ 0 then rmNotRunning else rmRunning) =
      if c.hidden then rmNotRunning else rmRunning := by
    rw [VctChannel.fields]
    cases c.hidden <;> rfl
  have hfold := value_psipDescriptors c.descriptors (pos + 32)
    { s with serviceName := some (c.shortName.map fun u => UInt8.ofNat u.toNat) } hdescriptors
  rw [fillService,hname,hhidden,VctChannel.record,← hfold]
  rfl

theorem vctLoop_stuck (h : buf.slice pos c.bytes.length = c.bytes) (hother : ¬ c.Recordable) (left pseudoId : Nat)
    (tp : Services) : vctLoop buf left pos pseudoId tp = tp := by
  have hother' : ¬ (c.fields.serviceType = 1 ∨ c.fields.serviceType = 2 ∨ c.fields.serviceType = 3) := hother
  induction left with
  | zero => rfl
  | succ left ih => rw [vctLoop,(read_channel c h).1,if_neg hother',ih]

theorem vctLoop_channel (h : buf.slice pos c.bytes.length = c.bytes) (hrecordable : c.Recordable)
    (left pseudoId : Nat) (tp : Services) :
    vctLoop buf (left + 1) pos pseudoId tp =
      vctLoop buf left (pos + c.bytes.length) (c.number pseudoId).2
        (tp.put (c.record (tp.findOrAlloc (c.number pseudoId).1))) := by
  have hrecordable' : c.fields.serviceType = 1 ∨ c.fields.serviceType = 2 ∨ c.fields.serviceType = 3 := hrecordable
  rw [vctLoop,(read_channel c h).1,if_pos hrecordable']
  dsimp only
  rw [fillService_eq c h,c.length_bytes]
  rfl

def reached (channels : List VctChannel) : List VctChannel := channels.takeWhile VctChannel.Recordable

theorem reached_cons_of_pos (h : c.Recordable) : reached (c :: channels) = c :: reached channels := by
  rw [reached,takeWhile_cons,decide_eq_true h,if_pos rfl,reached]

theorem reached_cons_of_neg (h : ¬ c.Recordable) : reached (c :: channels) = [] := by
  rw [reached,takeWhile_cons,decide_eq_false h,if_neg Bool.false_ne_true]

theorem numbered_cons_of_pos (h : c.Recordable) (pseudoId : Nat) :
    numbered pseudoId (c :: channels) = (c, (c.number pseudoId).1) :: numbered (c.number pseudoId).2 channels := by
  rw [numbered,if_pos h]

theorem vctLoop_records (pos pseudoId : Nat) (tp : Services)
    (h : buf.slice pos (channels.flatMap VctChannel.bytes).length = channels.flatMap VctChannel.bytes)
    (hown : (numbered pseudoId (reached channels)).Pairwise fun a b => a.1.TvRadio ∨ b.1.TvRadio → a.2 ≠ b.2) :
    (∀ s ∈ tp.services, s.serviceId ∉ (numbered pseudoId (reached channels)).map Prod.snd →
      s ∈ (vctLoop buf channels.length pos pseudoId tp).services) ∧
    (∀ p ∈ numbered pseudoId (reached channels), p.1.TvRadio →
      ∃ s ∈ (vctLoop buf channels.length pos pseudoId tp).services, s.serviceId = p.2 ∧ ∃ old, s = p.1.record old) ∧
    ∀ s ∈ (vctLoop buf channels.length pos pseudoId tp).services,
      s ∈ tp.services ∨ s.serviceId ∈ (numbered pseudoId (reached channels)).map Prod.snd := by
  induction channels generalizing pos pseudoId tp with
  | nil => exact ⟨fun s hs _ => hs,fun p hp => absurd hp not_mem_nil,fun s hs => Or.inl hs⟩
  | cons c channels ih =>
    rw [flatMap_cons] at h
    obtain ⟨hfirst,hrest⟩ := (Mem.slice_append_iff _ _ _ _).mp h
    by_cases hrecordable : c.Recordable
    · rw [reached_cons_of_pos hrecordable,numbered_cons_of_pos hrecordable] at hown ⊢
      rw [length_cons,vctLoop_channel hfirst hrecordable]
      obtain ⟨hhead,htail⟩ := List.pairwise_cons.mp hown
      have hnew : (c.record (tp.findOrAlloc (c.number pseudoId).1)).serviceId = (c.number pseudoId).1 := by
        rw [record_serviceId,findOrAlloc_serviceId]
      obtain ⟨hstays,hrecords,honly⟩ := ih _ _ (tp.put (c.record (tp.findOrAlloc (c.number pseudoId).1))) hrest htail
      refine ⟨fun s hs hnot => ?_,fun p hp htv => ?_,fun s hs => ?_⟩
      · rw [map_cons,mem_cons,not_or] at hnot
        refine hstays s (mem_putService_of_ne hs ?_) hnot.2
        rw [hnew]
        exact hnot.1
      · rcases mem_cons.mp hp with rfl | hp
        · refine ⟨_,hstays _ mem_putService_self ?_,hnew,_,rfl⟩
          rw [hnew]
          intro hmem
          obtain ⟨q,hq,hqid⟩ := mem_map.mp hmem
          exact hhead q hq (Or.inl htv) hqid.symm
        · exact hrecords p hp htv
      · rw [map_cons,mem_cons]
        rcases honly s hs with hs | hs
        · rcases eq_or_mem_of_mem_putService hs with rfl | hs
          · exact Or.inr (Or.inl hnew)
          · exact Or.inl hs
        · exact Or.inr (Or.inr hs)
    · rw [reached_cons_of_neg hrecordable,vctLoop_stuck hfirst hrecordable]
      exact ⟨fun s hs _ => hs,fun p hp => absurd hp not_mem_nil,fun s hs => Or.inl hs⟩

end Walk

/-! ## Tables -/

section Table

variable {buf : Mem UInt8} {pos : Nat} {channels : List VctChannel}

def pseudoBehind : Nat → List VctChannel → Nat
  | pseudoId, [] => pseudoId
  | pseudoId, c :: cs => pseudoBehind (if c.Recordable then (c.number pseudoId).2 else pseudoId) cs

theorem numbered_append (pre post : List VctChannel) (pseudoId : Nat) :
    numbered pseudoId (pre ++ post) = numbered pseudoId pre ++ numbered (pseudoBehind pseudoId pre) post := by
  induction pre generalizing pseudoId with
  | nil => rfl
  | cons c pre ih =>
    rw [cons_append,numbered,numbered,pseudoBehind]
    split
    · rw [ih,cons_append]
    · rw [ih]

theorem mem_of_mem_numbered {p : VctChannel × Nat} {pseudoId : Nat} (h : p ∈ numbered pseudoId channels) :
    p.1 ∈ channels := by
  induction channels generalizing pseudoId with
  | nil => cases h
  | cons c channels ih =>
    rw [numbered] at h
    split at h
    · rcases mem_cons.mp h with rfl | h
      · exact mem_cons_self
      · exact mem_cons_of_mem c (ih h)
    · exact mem_cons_of_mem c (ih h)

theorem exists_mem_numbered {c : VctChannel} (h : c ∈ channels) (hrecordable : c.Recordable) (pseudoId : Nat) :
    ∃ n, (c, n) ∈ numbered pseudoId channels := by
  obtain ⟨pre,post,rfl⟩ := append_of_mem h
  refine ⟨(c.number (pseudoBehind pseudoId pre)).1,?_⟩
  rw [numbered_append,numbered_cons_of_pos hrecordable]
  exact mem_append_right _ mem_cons_self

theorem VctChannel.TvRadio.recordable {c : VctChannel} (h : c.TvRadio) : c.Recordable := Or.inr h

def InFront (channels : List VctChannel) : Prop :=
  ∀ pre c post, channels = pre ++ c :: post → c.TvRadio → ∀ d ∈ pre, d.Recordable

theorem inFront_cons_of_pos {c : VctChannel} (h : c.Recordable) : InFront (c :: channels) ↔ InFront channels := by
  constructor
  · intro hfront pre x post hsplit hx d hd
    exact hfront (c :: pre) x post (by rw [hsplit]; rfl) hx d (mem_cons_of_mem c hd)
  · intro hfront pre x post hsplit hx d hd
    cases pre with
    | nil => cases hd
    | cons y pre =>
      obtain ⟨rfl,hrest⟩ := List.cons.inj hsplit
      rcases mem_cons.mp hd with rfl | hd
      · exact h
      · exact hfront pre x post hrest hx d hd

theorem inFront_cons_of_neg {c : VctChannel} (h : ¬ c.Recordable) :
    InFront (c :: channels) ↔ ∀ d ∈ channels, ¬ d.TvRadio := by
  constructor
  · intro hfront d hd htv
    obtain ⟨pre,post,rfl⟩ := append_of_mem hd
    exact h (hfront (c :: pre) d post rfl htv c mem_cons_self)
  · intro hnone pre x post hsplit hx d hd
    cases pre with
    | nil => cases hd
    | cons y pre =>
      obtain ⟨-,rfl⟩ := List.cons.inj hsplit
      exact absurd hx (hnone x (mem_append_right _ mem_cons_self))

theorem inFront_iff : InFront channels ↔ ∀ c ∈ channels.dropWhile VctChannel.Recordable, ¬ c.TvRadio := by
  induction channels with
  | nil =>
    refine ⟨fun _ c hc => absurd hc not_mem_nil,fun _ pre c post hsplit => ?_⟩
    exact absurd hsplit.symm (List.append_ne_nil_of_right_ne_nil _ (cons_ne_nil c post))
  | cons c channels ih =>
    rw [List.dropWhile_cons]
    by_cases hrecordable : c.Recordable
    · rw [inFront_cons_of_pos hrecordable,ih,decide_eq_true hrecordable,if_pos rfl]
    · rw [inFront_cons_of_neg hrecordable,decide_eq_false hrecordable,if_neg Bool.false_ne_true,forall_mem_cons]
      exact ⟨fun h => ⟨fun htv => hrecordable htv.recordable,h⟩,fun h => h.2⟩

/-- All television and radio channels are recorded just when no channel of another kind stands in front of one and
their names end. -/
theorem parsePsipVct_records_iff (protocolVersion : UInt8) (hcount : channels.length < 256) (hown : OwnNumbers channels)
    (hbytes : buf.slice pos (vctBody protocolVersion channels).length = vctBody protocolVersion channels) :
    (∀ tp : Services, ∀ p ∈ numbered 0xffff channels, p.1.TvRadio → p.1.Recorded p.2 (parsePsipVct buf pos tp)) ↔
      InFront channels ∧ ∀ c ∈ channels, c.TvRadio → c.Terminated := by
  obtain ⟨hhead,hchannels⟩ := (Mem.slice_append_iff _ _ _ _).mp hbytes
  have hcells : [buf pos, buf (pos + 1)] = [protocolVersion, UInt8.ofNat channels.length] := hhead
  simp only [List.cons.injEq,and_true] at hcells
  have hnumber : (buf (pos + 1)).toNat = channels.length := by
    rw [hcells.2,UInt8.toNat_ofNat_of_lt' hcount]
  have hsplit : reached channels ++ channels.dropWhile VctChannel.Recordable = channels :=
    List.takeWhile_append_dropWhile
  have hnumbered := numbered_append (reached channels) (channels.dropWhile VctChannel.Recordable) 0xffff
  rw [hsplit] at hnumbered
  rw [OwnNumbers,hnumbered,List.pairwise_append] at hown
  have hwalk (tp : Services) := vctLoop_records (pos + 2) 0xffff tp hchannels hown.1
  rw [inFront_iff]
  constructor
  · intro h
    refine ⟨fun c hc htv => ?_,fun c hc htv => ?_⟩
    · obtain ⟨n,hn⟩ := exists_mem_numbered hc htv.recordable (pseudoBehind 0xffff (reached channels))
      obtain ⟨s,hs,hid,-⟩ := h ⟨0,[]⟩ (c, n) (by rw [hnumbered]; exact mem_append_right _ hn) htv
      rw [parsePsipVct,hnumber] at hs
      rcases (hwalk ⟨0,[]⟩).2.2 s hs with hs | hs
      · cases hs
      · obtain ⟨q,hq,hqid⟩ := mem_map.mp hs
        exact hown.2.2 q hq (c, n) hn (Or.inr htv) (hqid.trans hid)
    · obtain ⟨n,hn⟩ := exists_mem_numbered hc htv.recordable 0xffff
      obtain ⟨s,-,-,⟨old,rfl⟩,hname⟩ := h ⟨0,[]⟩ (c, n) hn htv
      exact (c.nameEnds_record old).mp hname
  · rintro ⟨hreached,hnames⟩ tp p hp htv
    rw [hnumbered] at hp
    rcases mem_append.mp hp with hp' | hp'
    · obtain ⟨s,hs,hid,old,rfl⟩ := (hwalk tp).2.1 p hp' htv
      refine ⟨p.1.record old,?_,hid,⟨old,rfl⟩,(p.1.nameEnds_record old).mpr ?_⟩
      · rw [parsePsipVct,hnumber]
        exact hs
      · refine hnames p.1 ?_ htv
        rw [← hsplit]
        exact mem_append_left _ (mem_of_mem_numbered hp')
    · exact absurd htv (hreached p.1 (mem_of_mem_numbered hp'))

end Table

/-- scan records every entry of a well-formed table just when no entry ends the walk in front of another. -/
theorem tables_recorded_iff {buf : Mem UInt8} {pos : Nat} (originalNetworkId : UInt16) (reserved : UInt8)
    {entries : List SdtService} (hunique : (ids entries).Nodup)
    (hsdt : buf.slice pos (sdtBody originalNetworkId reserved entries).length =
      sdtBody originalNetworkId reserved entries)
    {buf' : Mem UInt8} {pos' : Nat} (protocolVersion : UInt8) {channels : List VctChannel}
    (hcount : channels.length < 256) (hown : OwnNumbers channels)
    (hvct : buf'.slice pos' (vctBody protocolVersion channels).length = vctBody protocolVersion channels) :
    ((∀ tp : Services, ∀ e ∈ entries, e.Recorded
        (parseSdt buf pos (sdtBody originalNetworkId reserved entries).length tp).value) ↔
      ∀ e ∈ entries, e.descriptors ≠ []) ∧
    ((∀ tp : Services, ∀ p ∈ numbered 0xffff channels, p.1.TvRadio → p.1.Recorded p.2 (parsePsipVct buf' pos' tp)) ↔
      InFront channels ∧ ∀ c ∈ channels, c.TvRadio → c.Terminated) :=
  ⟨parseSdt_records_iff originalNetworkId reserved hunique hsdt,
    parsePsipVct_records_iff protocolVersion hcount hown hvct⟩

section Samples

-- the bounds of the fields in the tables below
theorem four_lt_eight : 4 < 8 := by decide

theorem zero_lt_eight : 0 < 8 := by decide

theorem zero_lt_sixteen : 0 < 16 := by decide

theorem zero_lt_sixtyfour : 0 < 64 := by decide

theorem one_lt_thousand : 1 < 1024 := by decide

theorem empty_fits : (loopBytes []).length < 4096 := by decide

theorem nothing_fits : (List.flatMap VctDescriptor.bytes []).length < 1024 := by decide

theorem name_fits : [0x01, 0x00, 0x00].length < 256 := by decide

def nameDescriptor : Descriptor := ⟨0x48, [0x01, 0x00, 0x00], name_fits⟩

theorem name_loop_fits : (loopBytes [nameDescriptor]).length < 4096 := by decide

def namedService (id : UInt16) : SdtService := ⟨id, 0xfc, 4, four_lt_eight, false, [nameDescriptor], name_loop_fits⟩

def bareService (id : UInt16) : SdtService := ⟨id, 0xfc, 4, four_lt_eight, false, [], empty_fits⟩

def shortNameK : List UInt16 := [0x4b, 0, 0, 0, 0, 0, 0]

theorem length_shortNameK : shortNameK.length = 7 := rfl

def noTuning : List UInt8 := [0, 0, 0, 0, 0, 0, 0]

theorem length_noTuning : noTuning.length = 7 := rfl

def sampleChannel (programNumber : UInt16) (serviceType : Nat) (h : serviceType < 64) : VctChannel :=
  ⟨shortNameK, length_shortNameK, 0, zero_lt_sixteen, 1, one_lt_thousand, 1, one_lt_thousand, noTuning,
    length_noTuning, programNumber, 0, zero_lt_eight, false, 0, zero_lt_sixtyfour, serviceType, h, 0, 0,
    zero_lt_sixtyfour, [], nothing_fits⟩

theorem two_lt_sixtyfour : 2 < 64 := by decide

theorem type_data_lt : 4 < 64 := by decide

def tvChannel (programNumber : UInt16) : VctChannel := sampleChannel programNumber 2 two_lt_sixtyfour

def dataChannel (programNumber : UInt16) : VctChannel := sampleChannel programNumber 4 type_data_lt

theorem tables_recorded_one : (∀ tp : Services, ∀ e ∈ [namedService 1], e.Recorded
      (parseSdt (Mem.ofList (sdtBody 1 0xff [namedService 1])) 0 (sdtBody 1 0xff [namedService 1]).length tp).value) ∧
    ∀ tp : Services, ∀ p ∈ numbered 0xffff [tvChannel 1], p.1.TvRadio →
      p.1.Recorded p.2 (parsePsipVct (Mem.ofList (vctBody 0 [tvChannel 1])) 0 tp) := by
  have hown : OwnNumbers [tvChannel 1] := List.pairwise_singleton _ _
  have hunique : (ids [namedService 1]).Nodup := List.nodup_cons.mpr ⟨List.not_mem_nil, List.nodup_nil⟩
  obtain ⟨hsdt, hvct⟩ := tables_recorded_iff 1 0xff hunique
    (Mem.slice_ofList (sdtBody 1 0xff [namedService 1])) 0 (by decide) hown
    (Mem.slice_ofList (vctBody 0 [tvChannel 1]))
  refine ⟨hsdt.mpr fun e he => ?_, hvct.mpr ⟨?_, fun c hc _ => ?_⟩⟩
  · rw [List.mem_singleton.mp he]
    exact List.cons_ne_nil _ _
  · exact (inFront_cons_of_pos (Or.inr (Or.inl rfl))).mpr (inFront_iff.mpr fun c hc => absurd hc List.not_mem_nil)
  · rw [List.mem_singleton.mp hc]
    exact Or.inl ⟨0, by decide, by decide⟩

/-- A service without descriptors hides the one behind it, and a data channel the television channel. -/
theorem tables_hidden : (¬ ∀ e ∈ [bareService 1, namedService 2], e.Recorded
      (parseSdt (Mem.ofList (sdtBody 1 0xff [bareService 1, namedService 2])) 0
        (sdtBody 1 0xff [bareService 1, namedService 2]).length ⟨0, []⟩).value) ∧
    ¬ ∀ p ∈ numbered 0xffff [dataChannel 1, tvChannel 2], p.1.TvRadio →
      p.1.Recorded p.2 (parsePsipVct (Mem.ofList (vctBody 0 [dataChannel 1, tvChannel 2])) 0 ⟨0, []⟩) := by
  constructor
  · intro h
    obtain ⟨s, hs, -⟩ := h (namedService 2) (List.mem_cons_of_mem _ (List.mem_singleton_self _))
    obtain ⟨-, hbytes⟩ :=
      (Mem.slice_append_iff _ _ _ _).mp (Mem.slice_ofList (sdtBody 1 0xff [bareService 1, namedService 2]))
    rw [List.flatMap_cons] at hbytes
    have hbare : (Mem.ofList (sdtBody 1 0xff [bareService 1, namedService 2])).slice (0 + 3)
        (bareService 1).bytes.length = (bareService 1).bytes := ((Mem.slice_append_iff _ _ _ _).mp hbytes).1
    rw [parseSdt, value_sdtLoop_empty hbare rfl] at hs
    cases hs
  · intro h
    obtain ⟨s, hs, -⟩ := h (tvChannel 2, 2) (List.mem_singleton_self _) (Or.inl rfl)
    obtain ⟨-, hbytes⟩ :=
      (Mem.slice_append_iff _ _ _ _).mp (Mem.slice_ofList (vctBody 0 [dataChannel 1, tvChannel 2]))
    rw [List.flatMap_cons] at hbytes
    have hdata : (Mem.ofList (vctBody 0 [dataChannel 1, tvChannel 2])).slice (0 + 2)
        (dataChannel 1).bytes.length = (dataChannel 1).bytes := ((Mem.slice_append_iff _ _ _ _).mp hbytes).1
    rw [parsePsipVct, vctLoop_stuck hdata (by decide)] at hs
    cases hs

end Samples

end LinuxDvb.Scan.Tables
