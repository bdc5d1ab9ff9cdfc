import NeuroKinetic.ShmFormat
import Mathlib.Data.List.GetD

open LittleEndian CLayout PyStruct

namespace NeuroKinetic

section Command

variable {K : Type} [Field K] {seq : Nat} {torques : List (Ieee K)} {safetyMargin gamma : Ieee K}

theorem commandValues_torque (length : torques.length = DOF) (i : Fin DOF) :
    (commandValues seq torques safetyMargin gamma)[1 + (i : Nat)]? =
      some (.float (torques.getD i (.fin 0))) := by
  have inside : (i : Nat) < torques.length := by
    rw [length]
    exact i.isLt
  rw [commandValues, Nat.add_comm, List.getElem?_cons_succ,
    List.getElem?_append_left (by rw [List.length_map]; exact inside), List.getElem?_map,
    List.getD_eq_getElem?_getD, List.getElem?_eq_getElem inside, Option.map_some, Option.getD_some]

/-- After the torques, every value has a fixed place. -/
theorem commandValues_after (length : torques.length = DOF) (k : Nat) :
    (commandValues seq torques safetyMargin gamma)[8 + k]? =
      (List.replicate DOF (.float (.fin 0)) ++
        [.float safetyMargin, .float gamma, .int 1, .bytes (List.replicate 16 0)])[k]? := by
  have start : 8 + k = (torques.map Value.float).length + k + 1 := by
    rw [List.length_map, length, DOF]
    omega
  rw [commandValues, start, List.getElem?_cons_succ,
    List.getElem?_append_right (Nat.le_add_right _ _), Nat.add_sub_cancel_left]

theorem length_commandValues :
    (commandValues seq torques safetyMargin gamma).length = torques.length + 12 := by
  simp [commandValues, DOF]

theorem mapM_getD {α β : Type} {f : α → Option β} {xs : List α} (d : β)
    (h : ∀ x ∈ xs, (f x).isSome) : xs.mapM f = some (xs.map fun x => (f x).getD d) := by
  induction xs with
  | nil => rfl
  | cons x xs ih =>
    obtain ⟨y, found⟩ := Option.isSome_iff_exists.mp (h x List.mem_cons_self)
    rw [List.mapM_cons, ih fun z member => h z (List.mem_cons_of_mem x member), found]
    simp [found]

theorem mapM_self {α : Type} {f : α → Option α} {xs : List α} (h : ∀ x ∈ xs, f x = some x) :
    xs.mapM f = some xs := by
  induction xs with
  | nil => rfl
  | cons x xs ih =>
    rw [List.mapM_cons, h x List.mem_cons_self,
      ih fun y member => h y (List.mem_cons_of_mem x member)]
    rfl

theorem isSome_of_mapM {α β : Type} {f : α → Option β} {xs : List α} {ys : List β}
    (h : xs.mapM f = some ys) : ∀ x ∈ xs, (f x).isSome := by
  induction xs generalizing ys with
  | nil => simp
  | cons x xs ih =>
    rw [List.mapM_cons] at h
    obtain ⟨y, found, rest⟩ := Option.bind_eq_some_iff.mp h
    obtain ⟨zs, others, _⟩ := Option.bind_eq_some_iff.mp rest
    intro z member
    rcases List.mem_cons.mp member with rfl | later
    · rw [found, Option.isSome_some]
    · exact ih others z later

variable [LinearOrder K] [FloorRing K]

/-- Seven torques, and numbers that the 32-bit format can hold. -/
def Packable (seq : Nat) (torques : List (Ieee K)) (safetyMargin gamma : Ieee K) : Prop :=
  seq < 2 ^ 64 ∧ torques.length = DOF ∧
    ∀ x ∈ safetyMargin :: gamma :: torques, (Binary32.encode x).isSome

theorem packable_of_packCommand {seq : Nat} {slot : CommandSlot K}
    (h : packCommand Binary32.round seq torques safetyMargin gamma = .ok slot) :
    Packable seq torques safetyMargin gamma := by
  have encoded : ∀ {x y : Ieee K}, Binary32.round x = some y → (Binary32.encode x).isSome := by
    intro x y rounded
    rw [← Option.isSome_map, ← Binary32.round, rounded, Option.isSome_some]
  unfold packCommand at h
  split at h
  next => cases h
  next accepted =>
    split at h
    next nominal margin stiffness rounded roundedMargin roundedGamma =>
      refine ⟨by omega, by omega, fun x member => ?_⟩
      rcases List.mem_cons.mp member with rfl | member
      · exact encoded roundedMargin
      rcases List.mem_cons.mp member with rfl | member
      · exact encoded roundedGamma
      · obtain ⟨y, found⟩ := Option.isSome_iff_exists.mp (isSome_of_mapM rounded x member)
        exact encoded found
    next => cases h

variable {payload : List UInt8}

theorem pack_items (h : pack cmdFormat (commandValues seq torques safetyMargin gamma) =
    .ok payload) :
    torques.length = DOF ∧
      packItems cmdCodes (commandValues seq torques safetyMargin gamma) = .ok payload := by
  simp only [pack, parse_cmdFormat] at h
  split at h
  next length =>
    rw [length_commandValues] at length
    exact ⟨Nat.add_right_cancel length.symm, h⟩
  next => cases h

section Stored

variable {m : ShmImage} {before : List UInt8} (size : before.length = shmTotalSize)
  (stored : m.bytes = splice before cmdOffset payload)
  (packed : packItems cmdCodes (commandValues seq torques safetyMargin gamma) = .ok payload)

include size stored packed

theorem load_stored {bits start : Nat} (inside : start + bits / 8 ≤ calcsize cmdCodes) :
    load bits m.bytes (cmdOffset + start) = load bits payload start := by
  have total : payload.length = calcsize cmdCodes := length_packItems packed
  rw [stored, load_splice (by rw [size]; decide) (by rw [total]; exact inside)]

/-- A float of the command is stored rounded, at the place of its code. -/
theorem stored_float {k : Nat} {x : Ieee K} (code : cmdCodes[k]? = some .float32)
    (value : (commandValues seq torques safetyMargin gamma)[k]? = some (.float x))
    (inside : calcsize (cmdCodes.take k) + 4 ≤ calcsize cmdCodes) :
    Binary32.round x = some (loadFloat m (cmdOffset + calcsize (cmdCodes.take k))) := by
  rw [Binary32.round, packItems_float packed code value, Option.map_some, loadFloat,
    load_stored size stored packed inside]

variable (length : torques.length = DOF)

include length

theorem stored_torque (i : Fin DOF) : Binary32.round (torques.getD i (.fin 0)) =
    some (loadFloat m (commandMember 1 + i * floatType.size)) := by
  obtain ⟨code, place⟩ := (command_floats i).1
  rw [← place]
  exact stored_float size stored packed code (commandValues_torque length i) (by revert i; decide)

theorem stored_target (i : Fin DOF) : Binary32.round (.fin 0 : Ieee K) =
    some (loadFloat m (commandMember 2 + i * floatType.size)) := by
  obtain ⟨code, place⟩ := (command_floats i).2
  rw [← place]
  refine stored_float size stored packed code ?_ (by revert i; decide)
  rw [commandValues_after length, List.getElem?_append_left (by simp),
    List.getElem?_replicate_of_lt i.isLt]

theorem stored_nominal : torques.mapM Binary32.round =
    some (torques.map fun x => (Binary32.round x).getD (.fin 0)) := by
  refine mapM_getD _ fun x member => ?_
  obtain ⟨i, inside, rfl⟩ := List.getElem_of_mem member
  have torque := stored_torque size stored packed length ⟨i, length ▸ inside⟩
  rw [List.getD_eq_getElem _ _ inside] at torque
  rw [torque, Option.isSome_some]

end Stored

variable [IsStrictOrderedRing K]

theorem pack_isOk (h : Packable seq torques safetyMargin gamma) :
    ∃ payload, pack cmdFormat (commandValues seq torques safetyMargin gamma) = .ok payload := by
  obtain ⟨room, length, encodable⟩ := h
  have equal : cmdCodes.length = (commandValues seq torques safetyMargin gamma).length := by
    rw [length_commandValues, length]
    rfl
  have floats : ∀ xs : List (Ieee K), (∀ x ∈ xs, (Binary32.encode x).isSome) → xs.length = DOF →
      List.Forall₂ (fun c v => ∃ item, Code.pack c v = .ok item)
        (List.replicate DOF .float32) (xs.map .float) := by
    intro xs encodable length
    rw [← length]
    exact forall₂_floats encodable
  obtain ⟨zero, encodedZero, _⟩ := Option.map_eq_some_iff.mp (Binary32.round_zero (K := K))
  have zeros := floats (List.replicate DOF (.fin 0)) (fun x member => by
    rw [List.eq_of_mem_replicate member, encodedZero, Option.isSome_some]) List.length_replicate
  rw [List.map_replicate] at zeros
  have rest : List.Forall₂ (fun c v => ∃ item, Code.pack c v = .ok item)
      [.float32, .float32, .uint32, .bytes 16]
      [.float safetyMargin, .float gamma, .int 1, .bytes (List.replicate 16 0)] := by
    obtain ⟨margin, encodedMargin⟩ := Option.isSome_iff_exists.mp (encodable safetyMargin (by simp))
    obtain ⟨stiffness, encodedGamma⟩ := Option.isSome_iff_exists.mp (encodable gamma (by simp))
    exact .cons ⟨word margin, by simp only [Code.pack, encodedMargin]⟩
      (.cons ⟨word stiffness, by simp only [Code.pack, encodedGamma]⟩
        (.cons ⟨_, rfl⟩ (.cons ⟨_, rfl⟩ .nil)))
  simp only [pack, parse_cmdFormat, if_pos equal]
  apply packItems_ok
  refine .cons ⟨toBytes 8 seq, by simp only [Code.pack, if_pos room]⟩ ?_
  exact List.rel_append (floats torques (fun x member => encodable x (by simp [member])) length)
    (List.rel_append zeros rest)

/-- What was packed and stored reads back as the field-level command. -/
theorem packCommand_of_pack {m : ShmImage} {before : List UInt8}
    (size : before.length = shmTotalSize) (stored : m.bytes = splice before cmdOffset payload)
    (h : pack cmdFormat (commandValues seq torques safetyMargin gamma) = .ok payload) :
    packCommand Binary32.round seq torques safetyMargin gamma = .ok m.command := by
  obtain ⟨length, packed⟩ := pack_items h
  have view : ∀ {bits start : Nat}, start + bits / 8 ≤ calcsize cmdCodes →
      load bits m.bytes (cmdOffset + start) = load bits payload start :=
    load_stored size stored packed
  have margin : Binary32.round safetyMargin = some (loadFloat m (commandMember 3)) :=
    stored_float (k := 8 + 7) size stored packed rfl (commandValues_after length 7) (by decide)
  have stiffness : Binary32.round gamma = some (loadFloat m (commandMember 4)) :=
    stored_float (k := 8 + 8) size stored packed rfl (commandValues_after length 8) (by decide)
  obtain ⟨room, sequence⟩ := packItems_uint64 packed (k := 0) rfl rfl
  have flags := packItems_uint32 packed (k := 8 + 9) rfl (commandValues_after length 9)
  have nominal := stored_nominal size stored packed length
  rw [packCommand_eq length room nominal margin stiffness, ShmImage.command]
  refine congrArg Except.ok (CommandSlot.mk.injEq .. ▸ ⟨?_, ?_, ?_, rfl, rfl, ?_⟩)
  · exact sequence.symm.trans (congrArg BitVec.toNat (view (by decide)).symm)
  · funext i
    have mapped := List.getD_map (l := torques) (d := .fin 0) (n := (i : Nat))
      fun x => (Binary32.round x).getD (.fin 0)
    simp only [Binary32.round_zero, Option.getD_some] at mapped
    rw [mapped, stored_torque size stored packed length i, Option.getD_some]
  · funext i
    exact Option.some.inj
      (Binary32.round_zero.symm.trans (stored_target size stored packed length i))
  · exact flags.symm.trans (congrArg BitVec.toNat (view (by decide)).symm)

end Command

section Dispatch

variable {K : Type} [Field K]

theorem heartbeat_command {m : ShmImage} {counter : Nat} {buf : ShmImage}
    (bytes : buf.bytes = splice m.bytes heartbeatPyOffset (toBytes 8 counter)) :
    (buf.command : CommandSlot K) = m.command := by
  refine command_congr fun i after => ?_
  rw [bytes]
  exact heartbeat_outside m counter (Or.inr (le_trans (by decide) after))

theorem unpack_currSeq (m : ShmImage) :
    ∃ unpacked, (unpack heartbeatFormat (slice m.bytes cmdOffset 8) :
        Except Raised (List (Value K))) = .ok unpacked ∧
      (unpacked.getD 0 (.int 0)).toInt = (m.command (K := K)).seq := by
  have size : (slice m.bytes cmdOffset 8).length = calcsize [.uint64] :=
    length_slice (by rw [m.size]; decide)
  refine ⟨unpackFrom [.uint64] (slice m.bytes cmdOffset 8) 0, ?_, ?_⟩
  · simp only [unpack, parse_heartbeatFormat, if_pos size]
  · simp only [unpackFrom, List.getD_cons_zero, Code.unpack, Value.toInt, Code.size]
    rw [slice_slice _ (le_refl 8), load_slice _ (le_refl 8)]
    rfl

variable [LinearOrder K] [FloorRing K] [IsStrictOrderedRing K] (torques : List (Ieee K))
  (safetyMargin gamma : Ieee K) (c : ByteClient)

/-- What a dispatch may do: raise, with the command slot as it was, or store its
packed command over it. -/
inductive DispatchOutcome : ByteClient × Except Raised Unit → Prop
  | raised (e : Raised) (buf : ShmImage)
      (refused : ¬(c.heartbeatCounter + 1 < 2 ^ 64 ∧
        Packable (finalSeq (c.buf.command (K := K)).seq) torques safetyMargin gamma))
      (kept : ∀ i, i < 16 ∨ 24 ≤ i → buf.bytes[i]? = c.buf.bytes[i]?) :
      DispatchOutcome (⟨c.heartbeatCounter + 1, buf⟩, .error e)
  | sent (payload : List UInt8) (buf before : ShmImage)
      (room : c.heartbeatCounter + 1 < 2 ^ 64)
      (packed : pack cmdFormat (commandValues (finalSeq (c.buf.command (K := K)).seq) torques
        safetyMargin gamma) = .ok payload)
      (beat : before.bytes =
        splice c.buf.bytes heartbeatPyOffset (toBytes 8 (c.heartbeatCounter + 1)))
      (stored : buf.bytes = splice before.bytes cmdOffset payload) :
      DispatchOutcome (⟨c.heartbeatCounter + 1, buf⟩, .ok ())

theorem ByteClient.dispatch_outcome : DispatchOutcome torques safetyMargin gamma c
    (c.dispatchVlaTorque torques safetyMargin gamma) := by
  rcases c.sendHeartbeat_cases with ⟨room, before, sent, beat⟩ | ⟨full, raised⟩
  · obtain ⟨unpacked, loaded, currSeq⟩ := unpack_currSeq (K := K) before
    rw [heartbeat_command beat] at currSeq
    simp only [ByteClient.dispatchVlaTorque, sent, loaded, currSeq]
    cases packed : pack cmdFormat (commandValues (finalSeq (c.buf.command (K := K)).seq) torques
        safetyMargin gamma) with
    | error e =>
      refine .raised e before (fun ⟨_, packable⟩ => ?_) fun i outside => ?_
      · obtain ⟨payload, ok⟩ := pack_isOk packable
        rw [packed] at ok
        cases ok
      · rw [beat]
        exact heartbeat_outside c.buf _ outside
    | ok payload =>
      have total : payload.length = calcsize cmdCodes := length_packItems (pack_items packed).2
      have fits : cmdOffset + payload.length ≤ shmTotalSize := by
        rw [total]
        decide
      obtain ⟨buf, assigned, stored⟩ := assign_eq before payload rfl fits
      simp only [assigned]
      exact .sent payload buf before room packed beat stored
  · simp only [ByteClient.dispatchVlaTorque, raised]
    exact .raised .structError c.buf (fun ⟨room, _⟩ => full room) fun i _ => rfl

variable {torques safetyMargin gamma c}

theorem sent_command {payload : List UInt8} {buf before : ShmImage} {seq : Nat}
    (packed : pack cmdFormat (commandValues seq torques safetyMargin gamma) = .ok payload)
    (stored : buf.bytes = splice before.bytes cmdOffset payload) :
    packCommand Binary32.round seq torques safetyMargin gamma = .ok buf.command :=
  packCommand_of_pack before.size stored packed

/-- A client as the field-level model has it. -/
def ByteClient.view (c : ByteClient) : NeuroKineticClient K :=
  ⟨c.heartbeatCounter, ⟨c.buf.heartbeatPython, c.buf.command⟩⟩

/-- Through the C++ layout a dispatch over bytes is the dispatch over fields, with
the conversion to the nearest 32-bit float. -/
theorem ByteClient.dispatch_refines (c : ByteClient) :
    ((c.dispatchVlaTorque torques safetyMargin gamma).2 = .ok () ↔
        (NeuroKinetic.dispatchVlaTorque Binary32.round torques safetyMargin gamma c.view).2 =
          .ok ()) ∧
      (c.dispatchVlaTorque torques safetyMargin gamma).1.buf.command =
        (NeuroKinetic.dispatchVlaTorque Binary32.round torques safetyMargin gamma
          c.view).1.buf.command := by
  have outcome := c.dispatch_outcome torques safetyMargin gamma
  generalize c.dispatchVlaTorque torques safetyMargin gamma = after at outcome ⊢
  cases outcome with
  | raised e buf refused kept =>
    have kept : buf.command = (c.buf.command : CommandSlot K) :=
      command_congr fun i after => kept i (Or.inr (le_trans (by decide) after))
    rcases dispatchVlaTorque_cases Binary32.round torques safetyMargin gamma c.view with
      ⟨sent, packed⟩ | ⟨e', raised, same⟩
    · refine absurd ⟨?_, packable_of_packCommand packed⟩ refused
      by_contra full
      have full : ¬(c.view : NeuroKineticClient K).heartbeatCounter + 1 < 2 ^ 64 := full
      simp only [NeuroKinetic.dispatchVlaTorque, NeuroKinetic.sendHeartbeat, if_neg full] at sent
      cases sent
    · rw [raised, same]
      exact ⟨by simp, kept⟩
  | sent payload buf before room packed beat stored =>
    rw [dispatchVlaTorque_ok (c := c.view) room (sent_command packed stored)]
    exact ⟨by simp, rfl⟩

end Dispatch

section Parts

variable {K : Type} [Field K] [LinearOrder K] [FloorRing K] [IsStrictOrderedRing K]
  {c : ByteClient} {torques : List (Ieee K)} {safetyMargin gamma : Ieee K}

theorem dispatch_representable (room : (c.buf.command (K := K)).seq < 2 ^ 64 - 2)
    (length : torques.length = DOF)
    (representable : ∀ x ∈ safetyMargin :: gamma :: torques, ∃ w, Binary32.decode w = x) :
    let after := c.dispatchVlaTorque torques safetyMargin gamma
    (after.2 = .ok () ↔ c.heartbeatCounter + 1 < 2 ^ 64) ∧
      (after.2 = .ok () → ∃ seq,
        after.1.buf.command = ⟨seq, fun i => torques.getD i (.fin 0), fun _ => .fin 0,
          safetyMargin, gamma, 1⟩ ∧
        seq % 2 = 0 ∧ seq ≠ 0 ∧ (c.buf.command (K := K)).seq < seq ∧
        ∀ i, (i < 16 ∨ 24 ≤ i) → (i < 256 ∨ 256 + 92 ≤ i) →
          after.1.buf.bytes[i]? = c.buf.bytes[i]?) := by
  have rounded : ∀ x ∈ safetyMargin :: gamma :: torques, Binary32.round x = some x := by
    intro x member
    obtain ⟨w, rfl⟩ := representable x member
    exact Binary32.round_decode w
  have bound : finalSeq (c.buf.command (K := K)).seq < 2 ^ 64 := by
    unfold finalSeq
    split <;> omega
  have packable : Packable (finalSeq (c.buf.command (K := K)).seq) torques safetyMargin gamma := by
    refine ⟨bound, length, fun x member => ?_⟩
    rw [← Option.isSome_map, ← Binary32.round, rounded x member, Option.isSome_some]
  have nominal : torques.mapM Binary32.round = some torques :=
    mapM_self fun x member => rounded x (by simp [member])
  have command := packCommand_eq length bound nominal (rounded safetyMargin (by simp))
    (rounded gamma (by simp))
  have outcome := c.dispatch_outcome torques safetyMargin gamma
  intro after
  change DispatchOutcome torques safetyMargin gamma c after at outcome
  clear_value after
  cases outcome with
  | raised e buf refused kept =>
    have unsent : (⟨⟨c.heartbeatCounter + 1, buf⟩, .error e⟩ :
        ByteClient × Except Raised Unit).2 ≠ .ok () := by
      intro sent
      cases sent
    exact ⟨⟨fun sent => absurd sent unsent, fun room => absurd ⟨room, packable⟩ refused⟩,
      fun sent => absurd sent unsent⟩
  | sent payload buf before room packed beat stored =>
    refine ⟨⟨fun _ => room, fun _ => rfl⟩, fun _ => ⟨finalSeq (c.buf.command (K := K)).seq, ?_,
      finalSeq_even _, ?_, seq_lt_finalSeq _, fun i outside apart => ?_⟩⟩
    · exact Except.ok.inj ((sent_command packed stored).symm.trans command)
    · exact (Nat.zero_le _).trans_lt (seq_lt_finalSeq _) |>.ne'
    · have total : payload.length = 92 := length_packItems (pack_items packed).2
      rw [stored, getElem?_splice (by rw [before.size]; decide) (by rw [total]; exact apart), beat]
      exact heartbeat_outside c.buf _ outside

/-- Outside of its heartbeat, a dispatch that raises stores nothing. -/
theorem dispatch_raised {e : Raised}
    (raised : (c.dispatchVlaTorque torques safetyMargin gamma).2 = .error e) {i : Nat}
    (outside : i < 16 ∨ 24 ≤ i) :
    (c.dispatchVlaTorque torques safetyMargin gamma).1.buf.bytes[i]? = c.buf.bytes[i]? := by
  have outcome := c.dispatch_outcome torques safetyMargin gamma
  generalize c.dispatchVlaTorque torques safetyMargin gamma = after at outcome raised ⊢
  cases outcome with
  | raised e buf refused kept => exact kept i outside
  | sent payload buf before room packed beat stored => cases raised

theorem dispatch_refused
    (refused : torques.length ≠ DOF ∨
      ∃ x ∈ safetyMargin :: gamma :: torques, Binary32.encode x = none) :
    ∃ e, (c.dispatchVlaTorque torques safetyMargin gamma).2 = .error e := by
  have outcome := c.dispatch_outcome torques safetyMargin gamma
  generalize c.dispatchVlaTorque torques safetyMargin gamma = after at outcome ⊢
  cases outcome with
  | raised e buf refused kept => exact ⟨e, rfl⟩
  | sent payload buf before room packed beat stored =>
    obtain ⟨_, length, encodable⟩ := packable_of_packCommand (sent_command packed stored)
    rcases refused with short | ⟨x, member, overflow⟩
    · exact absurd length short
    · have encoded := encodable x member
      rw [overflow] at encoded
      cases encoded

end Parts

/-- Both sides agree on the format, whatever the bytes of the segment: a dispatch of
representable numbers is read by C++ as it was sent and changes nothing else, a
reading has the values of the C++ slot, and a dispatch that raises leaves the
command slot alone. -/
theorem shm_format_agrees {K : Type} [Field K] [LinearOrder K] [FloorRing K]
    [IsStrictOrderedRing K] (c : ByteClient) :
    (∀ (torques : List (Ieee K)) (safetyMargin gamma : Ieee K),
      (c.buf.command (K := K)).seq < 2 ^ 64 - 2 → torques.length = DOF →
      (∀ x ∈ safetyMargin :: gamma :: torques, ∃ w, Binary32.decode w = x) →
      let after := c.dispatchVlaTorque torques safetyMargin gamma
      (after.2 = .ok () ↔ c.heartbeatCounter + 1 < 2 ^ 64) ∧
        (after.2 = .ok () → ∃ seq,
          after.1.buf.command = ⟨seq, fun i => torques.getD i (.fin 0), fun _ => .fin 0,
            safetyMargin, gamma, 1⟩ ∧
          seq % 2 = 0 ∧ seq ≠ 0 ∧ (c.buf.command (K := K)).seq < seq ∧
          ∀ i, (i < offsetOf segmentMembers 2 ∨ offsetOf segmentMembers 2 + 8 ≤ i) →
            (i < offsetOf segmentMembers 4 ∨ offsetOf segmentMembers 4 + 92 ≤ i) →
            after.1.buf.bytes[i]? = c.buf.bytes[i]?)) ∧
      (ReadSafe (c.buf.telemetry (K := K)).seq → (c.readTelemetry (K := K)).2 =
        if c.heartbeatCounter + 1 < 2 ^ 64 then .ok c.buf.telemetry.reading
        else .error .structError) ∧
      ∀ (torques : List (Ieee K)) (safetyMargin gamma : Ieee K),
        (torques.length ≠ DOF ∨
            (∃ x ∈ safetyMargin :: gamma :: torques, Binary32.encode x = none) →
          ∃ e, (c.dispatchVlaTorque torques safetyMargin gamma).2 = .error e) ∧
        ∀ e, (c.dispatchVlaTorque torques safetyMargin gamma).2 = .error e →
          ∀ i, offsetOf segmentMembers 4 ≤ i →
            (c.dispatchVlaTorque torques safetyMargin gamma).1.buf.bytes[i]? =
              c.buf.bytes[i]? := by
  refine ⟨fun torques safetyMargin gamma room length representable => ?_, fun safe => ?_,
    fun torques safetyMargin gamma => ⟨fun refused => ?_, fun e => ?_⟩⟩
  · exact dispatch_representable room length representable
  · exact readTelemetry_safe safe
  · exact dispatch_refused refused
  · exact fun raised i after => dispatch_raised raised (Or.inr (le_trans (by decide) after))

/-- A segment of zeros but for a first telemetry sequence. -/
def freshImage : ShmImage where
  bytes := List.replicate 64 0 ++ 2 :: List.replicate 319 0
  size := by
    rw [List.length_append, List.length_cons, List.length_replicate, List.length_replicate]
    rfl

theorem shm_format_agrees_fresh :
    (ByteClient.dispatchVlaTorque (List.replicate DOF (Binary32.decode 0x3E800000#32 : Ieee ℚ))
        (.fin 0) (.fin 0) ⟨0, freshImage⟩).2 = .ok () ∧
      (ByteClient.readTelemetry ⟨0, freshImage⟩).2 =
        .ok (freshImage.telemetry.reading : TelemetryReading ℚ) ∧
      ∃ e, (ByteClient.dispatchVlaTorque ([] : List (Ieee ℚ)) (.fin 0) (.fin 0)
        ⟨0, freshImage⟩).2 = .error e := by
  obtain ⟨sent, reading, raised⟩ := shm_format_agrees (K := ℚ) ⟨0, freshImage⟩
  refine ⟨?_, ?_, ?_⟩
  · have sendable := sent (List.replicate DOF (Binary32.decode 0x3E800000#32)) (.fin 0) (.fin 0)
      (by decide +kernel) rfl (fun x member => by
        simp only [List.mem_cons, List.mem_replicate] at member
        rcases member with rfl | rfl | ⟨_, rfl⟩
        · exact ⟨0#32, Binary32.decode_zero⟩
        · exact ⟨0#32, Binary32.decode_zero⟩
        · exact ⟨_, rfl⟩)
    exact sendable.1.mpr (by decide)
  · exact (reading (by decide +kernel)).trans (if_pos (by decide))
  · exact (raised [] (.fin 0) (.fin 0)).1 (Or.inl (by decide))

end NeuroKinetic
