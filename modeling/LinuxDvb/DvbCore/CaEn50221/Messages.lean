import LinuxDvb.DvbCore.CaEn50221.Basic

/-!
# Messages and their fragments

What a sequence of fragments means: for each connection the data of its fragments, cut into messages behind every
fragment without the more bit.
-/

namespace LinuxDvb.CaEn50221

open Ringbuffer

def connectionOf (frag : List UInt8) : UInt8 := frag.getD 0 0

def isLast (frag : List UInt8) : Bool := frag.getD 1 0 &&& 0x80 = 0

/-- One fragment of any connection, seen from connection `c` with the data `acc` collected so far. -/
def collect (c : UInt8) (acc : List UInt8) (frag : List UInt8) : List UInt8 × List (List UInt8) :=
  if connectionOf frag = c then
    if isLast frag then ([], [acc ++ frag.drop 2]) else (acc ++ frag.drop 2, [])
  else (acc, [])

def messages (c : UInt8) (frags : List (List UInt8)) : List (List UInt8) :=
  (runTrace (collect c) [] frags).2

/-- Take the fragments of connection `c` out up to its first last fragment. -/
def takeMessage (c : UInt8) : List UInt8 → List (List UInt8) → Option (List UInt8 × List (List UInt8))
  | _, [] => none
  | acc, f :: fs =>
    if connectionOf f = c then
      if isLast f then some (acc ++ f.drop 2, fs) else takeMessage c (acc ++ f.drop 2) fs
    else (takeMessage c acc fs).map fun r => (r.1, f :: r.2)

def HasLast (c : UInt8) (frags : List (List UInt8)) : Prop :=
  ∃ f ∈ frags, connectionOf f = c ∧ isLast f = true

def Complete (frags : List (List UInt8)) : Prop :=
  ∃ f ∈ frags.head?, HasLast (connectionOf f) frags

theorem takeMessage_of_hasLast {c : UInt8} {frags : List (List UInt8)} (h : HasLast c frags)
    (acc : List UInt8) : ∃ r, takeMessage c acc frags = some r := by
  obtain ⟨g,hg,hc,hlast⟩ := h
  induction frags generalizing acc with
  | nil => simp at hg
  | cons f fs ih =>
    simp only [takeMessage]
    by_cases hf : connectionOf f = c
    · rw [if_pos hf]
      by_cases hl : isLast f = true
      · rw [if_pos hl]
        exact ⟨_,rfl⟩
      · rw [if_neg hl]
        rcases mem_cons.mp hg with rfl | hg
        · exact absurd hlast hl
        · exact ih _ hg
    · rw [if_neg hf]
      rcases mem_cons.mp hg with rfl | hg
      · exact absurd hc hf
      · obtain ⟨r,hr⟩ := ih acc hg
        exact ⟨_,by rw [hr]; rfl⟩

theorem collect_takeMessage {c : UInt8} {acc : List UInt8} {frags : List (List UInt8)}
    {msg : List UInt8} {rest : List (List UInt8)} (h : takeMessage c acc frags = some (msg, rest)) :
    runTrace (collect c) acc frags =
      ((runTrace (collect c) [] rest).1, msg :: (runTrace (collect c) [] rest).2) := by
  induction frags generalizing acc rest with
  | nil => simp [takeMessage] at h
  | cons f fs ih =>
    simp only [takeMessage] at h
    rw [runTrace_cons]
    by_cases hf : connectionOf f = c
    · rw [if_pos hf] at h
      by_cases hl : isLast f = true
      · rw [if_pos hl] at h
        cases h
        simp [collect,hf,hl]
      · rw [if_neg hl] at h
        simp only [collect,hf,hl,if_true,Bool.false_eq_true,if_false,nil_append]
        rw [ih h]
    · rw [if_neg hf] at h
      obtain ⟨⟨msg',rest'⟩,hr,heq⟩ := map_eq_some_iff.mp h
      cases heq
      simp only [collect,hf,if_false,nil_append,runTrace_cons]
      rw [ih hr]

theorem takeMessage_length_le {c : UInt8} {acc : List UInt8} {frags : List (List UInt8)}
    {msg : List UInt8} {rest : List (List UInt8)} (h : takeMessage c acc frags = some (msg, rest)) :
    msg.length ≤ acc.length + frags.flatten.length := by
  induction frags generalizing acc rest with
  | nil => simp [takeMessage] at h
  | cons f fs ih =>
    simp only [takeMessage] at h
    rw [flatten_cons,length_append]
    split at h
    · split at h
      · cases h
        rw [length_append,length_drop]
        omega
      · have := ih h
        rw [length_append,length_drop] at this
        omega
    · obtain ⟨⟨msg',rest'⟩,hr,heq⟩ := map_eq_some_iff.mp h
      cases heq
      have := ih hr
      dsimp only at this ⊢
      omega

theorem length_le_of_takeMessage {c : UInt8} {acc : List UInt8} {frags : List (List UInt8)}
    {msg : List UInt8} {rest : List (List UInt8)} (h : takeMessage c acc frags = some (msg, rest)) :
    acc.length ≤ msg.length := by
  induction frags generalizing acc rest with
  | nil => simp [takeMessage] at h
  | cons f fs ih =>
    simp only [takeMessage] at h
    split at h
    · split at h
      · cases h
        simp
      · have := ih h
        rw [length_append] at this
        omega
    · obtain ⟨⟨msg',rest'⟩,hr,heq⟩ := map_eq_some_iff.mp h
      cases heq
      exact ih hr

theorem collect_takeMessage_of_ne {c c' : UInt8} (hne : c' ≠ c) {acc acc' : List UInt8}
    {frags : List (List UInt8)} {msg : List UInt8} {rest : List (List UInt8)}
    (h : takeMessage c acc frags = some (msg, rest)) :
    runTrace (collect c') acc' frags = runTrace (collect c') acc' rest := by
  induction frags generalizing acc acc' rest with
  | nil => simp [takeMessage] at h
  | cons f fs ih =>
    simp only [takeMessage] at h
    by_cases hf : connectionOf f = c
    · have hskip : collect c' acc' f = (acc', []) := by
        rw [collect,if_neg (by rw [hf]; exact hne.symm)]
      rw [runTrace_cons,hskip]
      rw [if_pos hf] at h
      by_cases hl : isLast f = true
      · rw [if_pos hl] at h
        cases h
        rfl
      · rw [if_neg hl] at h
        exact ih h
    · rw [if_neg hf] at h
      obtain ⟨⟨msg',rest'⟩,hr,heq⟩ := map_eq_some_iff.mp h
      cases heq
      rw [runTrace_cons,runTrace_cons,ih hr]

/-- `connection_id` and `found` after the condition has looked at the fragments of a slot. -/
def scanFragments : Option UInt8 → List (List UInt8) → Option UInt8 × Bool
  | connectionId, [] => (connectionId, false)
  | connectionId, f :: fs =>
    let c := connectionId.getD (connectionOf f)
    if connectionOf f = c ∧ isLast f = true then (some c, true) else scanFragments (some c) fs

theorem scanFragments_found_iff (c : UInt8) (frags : List (List UInt8)) :
    (scanFragments (some c) frags).2 = true ↔ HasLast c frags := by
  induction frags with
  | nil => simp [scanFragments,HasLast]
  | cons f fs ih =>
    simp only [scanFragments,getD_some]
    by_cases hf : connectionOf f = c ∧ isLast f = true
    · rw [if_pos hf]
      exact ⟨fun _ => ⟨f,by simp,hf⟩,fun _ => rfl⟩
    · rw [if_neg hf,ih]
      constructor
      · rintro ⟨g,hg,h⟩
        exact ⟨g,by simp [hg],h⟩
      · rintro ⟨g,hg,h⟩
        rcases mem_cons.mp hg with rfl | hg
        · exact absurd h hf
        · exact ⟨g,hg,h⟩

theorem scanFragments_none (frags : List (List UInt8)) : scanFragments none frags = match frags with
      | [] => (none, false)
      | f :: _ => scanFragments (some (connectionOf f)) frags := by
  cases frags <;> rfl

theorem scanFragments_some_fst (c : UInt8) (frags : List (List UInt8)) : (scanFragments (some c) frags).1 = some c := by
  induction frags with
  | nil => rfl
  | cons f fs ih =>
    simp only [scanFragments,getD_some]
    split
    · rfl
    · exact ih

variable {rbuf : DvbRingbuffer} {as es bs : List (Nat × List UInt8)} {e : Nat × List UInt8}

theorem fragmentHeader_eq (h : Stored rbuf (as ++ e :: bs)) :
    fragmentHeader rbuf e.1 = (connectionOf e.2, e.2.getD 1 0) := by
  have hlen := h.two_le_length (e := e) (by simp)
  rw [fragmentHeader,h.read_eq (Nat.zero_le _)]
  obtain ⟨idx,bytes⟩ := e
  match bytes, hlen with
  | b0 :: b1 :: rest, _ => rfl

theorem conditionLoop_spec (h : Stored rbuf (as ++ es)) (connectionId : Option UInt8) (fuel : Nat)
    (hfuel : es.length < fuel)
    (hend : es ≠ [] → (scanFragments connectionId (es.map Prod.snd)).2 = true ∨ ¬ FullWrapped rbuf) :
    conditionLoop rbuf fuel (es.head?.map fun e => (e.1, e.2.length)) connectionId =
      scanFragments connectionId (es.map Prod.snd) := by
  induction es generalizing as connectionId fuel with
  | nil =>
    obtain ⟨fuel,rfl⟩ : ∃ k, fuel = k + 1 := ⟨fuel - 1,by omega⟩
    rfl
  | cons e es ih =>
    obtain ⟨fuel,rfl⟩ : ∃ k, fuel = k + 1 := ⟨fuel - 1,by omega⟩
    have hend := hend (by simp)
    simp only [List.head?_cons,map_some,conditionLoop,fragmentHeader_eq h,map_cons,
      scanFragments] at hend ⊢
    have hlast : (e.2.getD 1 0 &&& 0x80 = 0) ↔ isLast e.2 = true := by simp [isLast]
    by_cases hf : connectionOf e.2 = connectionId.getD (connectionOf e.2) ∧ isLast e.2 = true
    · rw [if_pos ⟨hf.1,hlast.mpr hf.2⟩,if_pos hf]
    · rw [if_neg (fun h => hf ⟨h.1,hlast.mp h.2⟩),if_neg hf]
      rw [if_neg hf] at hend
      have hne : es ≠ [] ∨ ¬ FullWrapped rbuf := by
        rcases hend with hend | hend
        · left
          rintro rfl
          simp [scanFragments] at hend
        · exact .inr hend
      rw [h.next_after hne]
      exact @ih (as ++ [e]) (by simpa using h) _ fuel (by simpa using hfuel) fun _ => hend

theorem readLoop_spec {c : UInt8} {acc msg : List UInt8} {rest : List (List UInt8)} {count : Nat}
    (h : Stored rbuf (as ++ es)) (connectionId : Option UInt8) (fuel : Nat) (hfuel : es.length < fuel)
    (hconn : ∀ e ∈ es.head?, connectionId.getD (connectionOf e.2) = c)
    (htake : takeMessage c acc (es.map Prod.snd) = some (msg, rest)) (hcount : 2 + msg.length ≤ count) :
    ∃ es', es'.map Prod.snd = rest ∧
      Stored (readLoop count fuel rbuf (es.head?.map fun e => (e.1, e.2.length)) connectionId
        (2 + acc.length) acc).1 (as ++ es') ∧
      (readLoop count fuel rbuf (es.head?.map fun e => (e.1, e.2.length)) connectionId
        (2 + acc.length) acc).2 = .message c (2 + msg.length) msg := by
  induction es generalizing as rbuf connectionId fuel acc rest with
  | nil => simp [takeMessage] at htake
  | cons e es ih =>
    obtain ⟨fuel,rfl⟩ : ∃ k, fuel = k + 1 := ⟨fuel - 1,by omega⟩
    have hc : connectionId.getD (connectionOf e.2) = c := hconn e (by simp)
    have hlen := h.two_le_length (e := e) (by simp)
    have hlast : (e.2.getD 1 0 &&& 0x80 = 0) ↔ isLast e.2 = true := by simp [isLast]
    simp only [List.head?_cons,map_some,readLoop,fragmentHeader_eq h,hc]
    simp only [map_cons,takeMessage] at htake
    by_cases hf : connectionOf e.2 = c
    · rw [if_pos hf] at htake ⊢
      have hsum : acc.length + (e.2.length - 2) ≤ msg.length := by
        split at htake
        · cases htake
          simp
        · have := length_le_of_takeMessage htake
          rwa [length_append,length_drop] at this
      have hfrag : (if 2 + acc.length < count then
          if 2 + acc.length + e.2.length - 2 > count then count - (2 + acc.length) else e.2.length - 2
          else 0) = e.2.length - 2 := by
        split
        · rw [if_neg (by omega)]
        · omega
      have hdata : (e.2.drop 2).take (e.2.length - 2) = e.2.drop 2 := by
        rw [← length_drop,take_length]
      have hpktlen : 2 + acc.length + (e.2.length - 2) = 2 + (acc ++ e.2.drop 2).length := by
        rw [length_append,length_drop]
        omega
      simp only [hfrag,h.read_eq hlen,hdata,hpktlen]
      by_cases hl : isLast e.2 = true
      · rw [if_pos hl] at htake
        cases htake
        rw [if_pos (hlast.mpr hl)]
        exact ⟨es,rfl,h.dispose,rfl⟩
      · rw [if_neg hl] at htake
        have hne : es ≠ [] := by
          rintro rfl
          simp [takeMessage] at htake
        rw [if_neg (fun h => hl (hlast.mp h)),h.next_after (.inl hne)]
        exact ih h.dispose (some c) fuel (by simpa using hfuel) (fun _ _ => rfl) htake
    · rw [if_neg hf] at htake ⊢
      obtain ⟨⟨msg',rest'⟩,hr,heq⟩ := map_eq_some_iff.mp htake
      cases heq
      have hne : es ≠ [] := by
        rintro rfl
        simp [takeMessage] at hr
      rw [h.next_after (.inl hne)]
      have hskip : Stored rbuf ((as ++ [e]) ++ es) := by simpa using h
      obtain ⟨es',hes',hst,hres⟩ := ih hskip (some c) fuel (by simpa using hfuel) (fun _ _ => rfl) hr
      exact ⟨e :: es',by simp [hes'],by simpa using hst,hres⟩

end LinuxDvb.CaEn50221
