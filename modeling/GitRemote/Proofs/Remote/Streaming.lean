import GitRemote.Proofs.Wire.Codec
import GitRemote.Remote.Rpc

/-!
# Reading a request while it is sent

A streamed body is read in pieces: first from the start that was collected, then from the payload that
was read last, and then from the packets. Whatever the sizes of the pieces are, together they are the
start and the rest of the request, and no more is read from the packets than that.
-/

namespace GitRemote

/-- A data packet takes more bytes than its payload has. -/
theorem Packet.length_payload_lt {s rest payload : Bytes}
    (h : read s = (.ok (some (.data payload)), rest)) : payload.length + rest.length < s.length := by
  obtain ⟨x, rfl, hwritten⟩ := read_eq_some.mp h
  cases hwritten with
  | data hdigits =>
    rw [List.length_append, List.length_append, hdigits.1]
    omega

namespace Rpc

namespace RequestStream

/-- What is still to be read from the packets, and what is left of them behind it. -/
def later (done : Bool) (s : Bytes) : Except String Bytes × Bytes :=
  if done then (.ok [], s) else readRest s

/-- What is still to be read, and what is left of the packets behind it. -/
def content (st : RequestStream) (s : Bytes) : Except String Bytes × Bytes :=
  ((later st.done s).1.map (st.start ++ st.pending ++ ·), (later st.done s).2)

variable {n : Nat} {st st' : RequestStream} {s rest piece : Bytes}

/-- A streamed body is read packet by packet, and any control packet ends it. -/
theorem readRest_eq_read (s : Bytes) : readRest s =
    match Packet.read s with
    | (.error e, rest) => (.error e.message, rest)
    | (.ok none, rest) => (.error "request ended without flush", rest)
    | (.ok (some (.control _)), rest) => (.ok [], rest)
    | (.ok (some (.data payload)), rest) =>
      ((readRest rest).1.map (payload ++ ·), (readRest rest).2) := by
  rw [readRest]
  split <;> rename_i hread <;> simp only [hread]

theorem map_nil_append (r : Except String Bytes) : r.map (([] : Bytes) ++ ·) = r := by
  cases r <;> rfl

theorem map_append_append (a b : Bytes) (r : Except String Bytes) :
    (r.map (b ++ ·)).map (a ++ ·) = r.map (a ++ b ++ ·) := by
  cases r with
  | error => rfl
  | ok later => exact congrArg Except.ok (List.append_assoc a b later).symm

/-- What is found in the packets is what is to be read from them. -/
theorem later_eq_refill (done : Bool) (s : Bytes) : later done s =
    match refill done s with
    | (.error e, rest) => (.error e, rest)
    | (.ok (pending, done), rest) => ((later done rest).1.map (pending ++ ·), (later done rest).2) := by
  fun_induction refill done s with
  | case1 => rfl
  | case2 done s hdone e rest hread | case3 done s hdone rest hread
  | case4 done s hdone p rest hread =>
    rw [later, if_neg hdone, readRest_eq_read, hread]
    try rfl
  | case5 done s hdone payload rest hread hempty ih =>
    rw [← ih, later, if_neg hdone, readRest_eq_read, hread, List.isEmpty_iff.mp hempty]
    simp only [map_nil_append]
    rfl
  | case6 done s hdone payload rest hread hfound =>
    rw [later, if_neg hdone, readRest_eq_read, hread]
    rfl

/-- A piece is what comes first of what is to be read. -/
theorem content_of_read (h : st.read n s = (.ok piece, st', rest)) :
    content st s = ((content st' rest).1.map (piece ++ ·), (content st' rest).2) := by
  obtain ⟨start, pending, done⟩ := st
  have hstart : start.take n = [] → ∀ b : Bytes, start ++ b = b.take n ++ (start ++ b.drop n) := by
    intro hnone b
    rcases List.take_eq_nil_iff.mp hnone with rfl | rfl
    · rfl
    · exact (List.take_append_drop n b).symm
  rw [read] at h
  split_ifs at h with htaken hpending
  · cases h
    simp only [content, map_append_append]
    rw [← List.append_assoc, List.take_append_drop]
  · cases h
    simp only [content, map_append_append]
    rw [hstart (not_not.mp htaken) pending]
  · obtain rfl : pending = [] := not_not.mp hpending
    have hlater := later_eq_refill done s
    rcases hrefill : refill done s with ⟨e | ⟨pending, done'⟩, rest'⟩ <;>
      simp only [hrefill] at h hlater <;> cases h
    simp only [content, hlater, map_append_append, List.append_nil]
    rw [hstart (not_not.mp htaken) pending]

/-- Nothing is found in the packets only where the request has ended. -/
theorem done_of_refill_nil {done done' : Bool} (h : refill done s = (.ok ([], done'), rest)) :
    done' = true := by
  fun_induction refill done s with
  | case1 => cases h; rfl
  | case2 => cases h
  | case3 => cases h
  | case4 => cases h; rfl
  | case5 _ _ _ _ _ _ _ ih => exact ih h
  | case6 done s hdone payload rest' hread hfound =>
    cases h
    exact absurd rfl hfound

/-- Where nothing is read there is nothing to be read. -/
theorem content_of_read_nil (hn : 0 < n) (h : st.read n s = (.ok [], st', rest)) :
    content st s = (.ok [], rest) := by
  obtain ⟨start, pending, done⟩ := st
  have htake {b : Bytes} (hb : b.take n = []) : b = [] :=
    (List.take_eq_nil_iff.mp hb).resolve_left (Nat.ne_of_gt hn)
  rw [read] at h
  split_ifs at h with htaken hpending
  · simp only [Prod.mk.injEq, Except.ok.injEq] at h
    exact absurd h.1 htaken
  · simp only [Prod.mk.injEq, Except.ok.injEq] at h
    exact absurd (htake h.1) hpending
  · obtain rfl : start = [] := htake (not_not.mp htaken)
    obtain rfl : pending = [] := not_not.mp hpending
    have hlater := later_eq_refill done s
    rcases hrefill : refill done s with ⟨e | ⟨pending, done'⟩, rest'⟩ <;>
      simp only [hrefill] at h hlater
    · cases h
    · simp only [Prod.mk.injEq, Except.ok.injEq] at h
      obtain ⟨hpiece, -, rfl⟩ := h
      obtain rfl : pending = [] := htake hpiece
      obtain rfl := done_of_refill_nil hrefill
      rw [content, hlater]
      rfl

/-- An error in reading is what becomes of the request. -/
theorem content_of_read_error {e : String} (h : st.read n s = (.error e, st', rest)) :
    content st s = (.error e, rest) := by
  obtain ⟨start, pending, done⟩ := st
  rw [read] at h
  split_ifs at h with htaken hpending
  · cases h
  · cases h
  · have hlater := later_eq_refill done s
    rcases hrefill : refill done s with ⟨e | ⟨pending, done'⟩, rest'⟩ <;>
      simp only [hrefill] at h hlater <;> cases h
    rw [content, hlater]
    rfl

/-- What is read in pieces is what was to be read, whatever the sizes of the pieces are. -/
theorem eq_content_of_drain {sizes : List Nat} {out : Except String Bytes × Bytes}
    (h : drain sizes st s = some out) : out = content st s := by
  induction sizes generalizing st s out with
  | nil => cases h
  | cons n sizes ih =>
    rw [drain] at h
    rcases hread : st.read n s with ⟨e | piece, st', rest⟩ <;> simp only [hread] at h
    · cases h
      exact (content_of_read_error hread).symm
    · split_ifs at h with hend
      · cases h
        obtain ⟨hn, rfl⟩ := hend
        exact (content_of_read_nil hn hread).symm
      · obtain ⟨out', hout, rfl⟩ := Option.map_eq_some_iff.mp h
        rw [ih hout, content_of_read hread]

/-- How many bytes there are for the pieces at most. -/
def room (st : RequestStream) (s : Bytes) : Nat :=
  st.start.length + st.pending.length + s.length

/-- A payload that is found takes more bytes than it has. -/
theorem length_of_refill {done done' : Bool} {pending : Bytes}
    (h : refill done s = (.ok (pending, done'), rest)) :
    pending.length + rest.length ≤ s.length := by
  fun_induction refill done s with
  | case1 => cases h; simp
  | case2 => cases h
  | case3 => cases h
  | case4 done s hdone p rest' hread =>
    cases h
    have hless := Packet.length_read_lt hread
    rw [List.length_nil]
    omega
  | case5 done s hdone payload rest' hread hempty ih =>
    have hless := Packet.length_read_lt hread
    have hfound := ih h
    omega
  | case6 done s hdone payload rest' hread hfound =>
    cases h
    exact Nat.le_of_lt (Packet.length_payload_lt hread)

/-- A piece takes its bytes from what there is. -/
theorem room_of_read (h : st.read n s = (.ok piece, st', rest)) :
    piece.length + room st' rest ≤ room st s := by
  obtain ⟨start, pending, done⟩ := st
  have hsplit (b : Bytes) : (b.take n).length + (b.drop n).length = b.length := by
    rw [← List.length_append, List.take_append_drop]
  rw [read] at h
  split_ifs at h with htaken hpending
  · cases h
    have hstart := hsplit start
    simp only [room]
    omega
  · cases h
    have hpiece := hsplit pending
    simp only [room]
    omega
  · rcases hrefill : refill done s with ⟨e | ⟨found, done'⟩, rest'⟩ <;>
      simp only [hrefill] at h <;> cases h
    have hpiece := hsplit found
    have hfound := length_of_refill hrefill
    simp only [room]
    omega

/-- Pieces that are not empty come to the end if there are enough of them. -/
theorem isSome_drain {sizes : List Nat} (hpos : ∀ n ∈ sizes, 0 < n)
    (henough : room st s < sizes.length) : (drain sizes st s).isSome = true := by
  induction sizes generalizing st s with
  | nil => cases henough
  | cons n sizes ih =>
    rw [List.forall_mem_cons] at hpos
    rw [drain]
    rcases hread : st.read n s with ⟨e | piece, st', rest⟩
    · rfl
    · dsimp only
      split_ifs with hend
      · rfl
      · have hpiece : 0 < piece.length :=
          List.length_pos_of_ne_nil fun hnil => hend ⟨hpos.1, hnil⟩
        have hroom := room_of_read hread
        rw [List.length_cons] at henough
        rw [Option.isSome_map]
        exact ih hpos.2 (by omega)

end RequestStream

end Rpc

end GitRemote
