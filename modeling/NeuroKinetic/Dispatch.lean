import NeuroKinetic.SlotWords

namespace NeuroKinetic

/-- The client's part of the segment, one word a field. -/
structure CommandMemory (K : Type) where
  heartbeatPython : Nat
  slot : CommandField → Word K

structure DispatchArgs (K : Type) where
  torques : List (Ieee K)
  safetyMargin : Ieee K
  gamma : Ieee K

/-- Where a dispatch stands; named after its next access to the segment. -/
inductive DispatchPc (K : Type) where
  | idle
  | loadSeq (args : DispatchArgs K)
  | storeSeq (payload : CommandSlot K)
  | storeField (payload : CommandSlot K) (pending : List CommandField)

structure Dispatcher (K : Type) where
  heartbeatCounter : Nat
  pc : DispatchPc K

/-- One access of a client that runs dispatches; an idle one starts the next. -/
def dispatchStep {K : Type} [Field K] (packFloat : Ieee K → Option (Ieee K))
    (args : DispatchArgs K) (mem : CommandMemory K) (c : Dispatcher K) :
    CommandMemory K × Dispatcher K :=
  match c.pc with
  | .idle =>
    let counter := c.heartbeatCounter + 1
    if counter < 2 ^ 64 then ({ mem with heartbeatPython := counter }, ⟨counter, .loadSeq args⟩)
    else (mem, ⟨counter, .idle⟩)
  | .loadSeq args =>
    match packCommand packFloat (finalSeq (mem.slot .seq).toNat) args.torques args.safetyMargin
      args.gamma with
    | .error _ => (mem, { c with pc := .idle })
    | .ok payload => (mem, { c with pc := .storeSeq payload })
  | .storeSeq payload =>
    ({ mem with slot := Function.update mem.slot .seq (.uint payload.seq) },
      { c with pc := .storeField payload payloadFields })
  | .storeField _ [] => (mem, { c with pc := .idle })
  | .storeField payload (f :: rest) =>
    ({ mem with slot := Function.update mem.slot f (payload.word f) },
      { c with pc := .storeField payload rest })

def DispatchPc.publishing {K : Type} : DispatchPc K → List (CommandSlot K)
  | .storeSeq payload => [payload]
  | _ => []

end NeuroKinetic
