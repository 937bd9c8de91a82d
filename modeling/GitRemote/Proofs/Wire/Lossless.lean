import GitRemote.Wire.Packet

/-!
# Sources that lose nothing

A source that never fails gives its bytes out in pieces whose sizes it chooses itself. What is read from
these bytes in memory is what is read from the source, and what is left there is what the source has
still to give out. A source that does so in every state has a content.
-/

namespace GitRemote

/-- States of a source stand for the bytes that are still to come from them: a piece is read off their
front, and is empty only where they end. -/
structure Conveys {σ : Type} [ByteSource σ] (R : σ → Bytes → Prop) : Prop where
  readSome_eq : ∀ {n : Nat} {s : σ} {b : Bytes}, R s b → 0 < n → ∃ piece s' b',
    readSome n s = (.ok piece, s') ∧ b = piece ++ b' ∧ R s' b' ∧ piece.length ≤ n ∧
      (piece = [] → b = [])

/-- A source and memory give the same answer, and what is left of the source stands for what is left of
the memory. -/
def Alike {σ α : Type} (R : σ → Bytes → Prop) (out : α × σ) (out' : α × Bytes) : Prop :=
  ∃ r s b, out = (r, s) ∧ out' = (r, b) ∧ R s b

namespace Conveys

variable {σ : Type} [ByteSource σ] {R : σ → Bytes → Prop} {s : σ} {b : Bytes}

/-- Pieces are put together until there are enough bytes. -/
theorem readPieces (hR : Conveys R) {fuel n : Nat} (h : n ≤ fuel) (hs : R s b) :
    Alike R (GitRemote.readPieces fuel n s) (GitRemote.readExactly n b) := by
  rw [readExactly_bytes]
  induction fuel generalizing n s b with
  | zero =>
    obtain rfl := Nat.le_zero.mp h
    exact ⟨.ok [], s, b, by rw [GitRemote.readPieces], by simp, hs⟩
  | succ fuel ih =>
    cases n with
    | zero => exact ⟨.ok [], s, b, by rw [GitRemote.readPieces], by simp, hs⟩
    | succ n =>
      obtain ⟨piece, s₁, b₁, hread, rfl, hs₁, hlen, hend⟩ := hR.readSome_eq hs (Nat.succ_pos n)
      rw [GitRemote.readPieces, hread]
      cases piece with
      | nil =>
        have hb₁ : b₁ = [] := hend rfl
        exact ⟨.error .ended, s₁, b₁, rfl, by simp [hb₁], hs₁⟩
      | cons x piece =>
        have hfuel : n + 1 - (x :: piece).length ≤ fuel := by
          rw [List.length_cons]
          omega
        obtain ⟨r, s₂, b₂, hrest, hmemory, hs₂⟩ := ih hfuel hs₁
        simp only [hrest, List.length_append]
        by_cases henough : n + 1 - (x :: piece).length ≤ b₁.length
        · rw [if_pos henough] at hmemory
          obtain ⟨rfl, rfl⟩ := Prod.mk.inj hmemory
          refine ⟨.ok (x :: piece ++ b₁.take (n + 1 - (x :: piece).length)), s₂, _, rfl, ?_, hs₂⟩
          rw [if_pos (by omega), List.take_append, List.take_of_length_le hlen, List.drop_append,
            List.drop_eq_nil_of_le hlen, List.nil_append]
        · rw [if_neg henough] at hmemory
          obtain ⟨rfl, rfl⟩ := Prod.mk.inj hmemory
          exact ⟨.error .ended, s₂, [], rfl, by rw [if_neg (by omega)], hs₂⟩

/-- Sources that convey the same bytes are read alike. -/
theorem readExactly (hR : Conveys R) (n : Nat) (hs : R s b) :
    Alike R (GitRemote.readExactly n s) (GitRemote.readExactly n b) :=
  hR.readPieces (Nat.le_refl n) hs

/-- A payload is read from a source as from the bytes that it stands for. -/
theorem readPayload (hR : Conveys R) (n : Nat) (hs : R s b) :
    Alike R (Packet.readPayload n s) (Packet.readPayload n b) := by
  obtain ⟨r, s', b', h, h', hs'⟩ := hR.readExactly (n - 4) hs
  rw [Packet.readPayload, Packet.readPayload, h, h']
  rcases r with (_ | e) | payload <;> exact ⟨_, s', b', rfl, rfl, hs'⟩

/-- What follows a length is read from a source as from the bytes that it stands for. -/
theorem readBody (hR : Conveys R) (digits : Bytes) (hs : R s b) :
    Alike R (Packet.readBody digits s) (Packet.readBody digits b) := by
  rw [Packet.readBody, Packet.readBody]
  split
  case h_6 =>
    split
    · exact ⟨_, s, b, rfl, rfl, hs⟩
    · exact hR.readPayload _ hs
  all_goals exact ⟨_, s, b, rfl, rfl, hs⟩

/-- A packet is read from a source as from the bytes that it stands for. -/
theorem read (hR : Conveys R) (hs : R s b) : Alike R (Packet.read s) (Packet.read b) := by
  obtain ⟨r, s₁, b₁, h, h', hs₁⟩ := hR.readExactly 4 hs
  rw [Packet.read, Packet.read, h, h']
  rcases r with (_ | e) | digits
  · exact ⟨_, s₁, b₁, rfl, rfl, hs₁⟩
  · exact ⟨_, s₁, b₁, rfl, rfl, hs₁⟩
  · obtain ⟨r, s₂, b₂, hbody, hbody', hs₂⟩ := hR.readBody digits hs₁
    simp only [hbody, hbody']
    cases r <;> exact ⟨_, s₂, b₂, rfl, rfl, hs₂⟩

/-- A packet that must come is read from a source as from the bytes that it stands for. -/
theorem readDue (hR : Conveys R) (hs : R s b) : Alike R (Packet.readDue s) (Packet.readDue b) := by
  obtain ⟨r, s', b', h, h', hs'⟩ := hR.read hs
  rw [Packet.readDue, Packet.readDue, h, h']
  rcases r with e | _ | p <;> exact ⟨_, s', b', rfl, rfl, hs'⟩

/-- A line is read from a source as from the bytes that it stands for. -/
theorem readLine (hR : Conveys R) (hs : R s b) :
    Alike R (Packet.readLine s) (Packet.readLine b) := by
  obtain ⟨r, s', b', h, h', hs'⟩ := hR.readDue hs
  rw [Packet.readLine, Packet.readLine, h, h']
  rcases r with e | payload | c
  · exact ⟨_, s', b', rfl, rfl, hs'⟩
  · exact ⟨_, s', b', rfl, rfl, hs'⟩
  · cases c <;> exact ⟨_, s', b', rfl, rfl, hs'⟩

end Conveys

/-- A source that gives out its content in pieces. A piece is empty only where the content ends. -/
class LosslessSource (σ : Type) [ByteSource σ] where
  /-- The bytes that are still to come. -/
  content : σ → Bytes
  readSome_eq : ∀ {n : Nat} (s : σ), 0 < n → ∃ piece s', readSome n s = (.ok piece, s') ∧
    content s = piece ++ content s' ∧ piece.length ≤ n ∧ (piece = [] → content s = [])

export LosslessSource (content)

instance : LosslessSource Bytes where
  content s := s
  readSome_eq {n} s hn := by
    refine ⟨s.take n, s.drop n, rfl, (List.take_append_drop n s).symm, List.length_take_le .., ?_⟩
    rw [List.take_eq_nil_iff]
    exact fun h => h.resolve_left (Nat.ne_of_gt hn)

section

variable {σ : Type} [ByteSource σ] [LosslessSource σ]

/-- A source that has a content stands for it. -/
theorem conveys_content : Conveys fun (s : σ) b => content s = b where
  readSome_eq {n s b} hs hn := by
    obtain ⟨piece, s', hread, hcontent, hlen, hend⟩ := LosslessSource.readSome_eq s hn
    exact ⟨piece, s', content s', hread, hs ▸ hcontent, rfl, hlen, fun h => hs ▸ hend h⟩

/-- A packet is read from the content of a source as from the source. -/
theorem Packet.read_content (s : σ) : read (content s) = Prod.map id content (read s) := by
  obtain ⟨r, s', b', h, h', rfl⟩ := conveys_content.read (s := s) rfl
  rw [h, h']
  rfl

end

/-- Bytes that are given out one at a time. -/
structure Trickle where
  bytes : Bytes
  deriving DecidableEq, Repr

instance : ByteSource Trickle where
  readSome n s := (.ok (s.bytes.take (min n 1)), ⟨s.bytes.drop (min n 1)⟩)
  bound s := s.bytes.length

instance : LosslessSource Trickle where
  content s := s.bytes
  readSome_eq {n} s hn := by
    refine ⟨_, _, rfl, (List.take_append_drop (min n 1) s.bytes).symm, ?_, ?_⟩
    · exact Nat.le_trans (List.length_take_le ..) (Nat.min_le_left ..)
    · rw [List.take_eq_nil_iff]
      exact fun h => h.resolve_left (by omega)

end GitRemote
