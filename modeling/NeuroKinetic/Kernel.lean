import NeuroKinetic.Library.Ieee
import NeuroKinetic.Library.RidgeProjection

open Matrix RidgeProjection

namespace NeuroKinetic

abbrev DOF : Nat := 7

instance : NeZero DOF := ⟨Nat.succ_ne_zero 6⟩
instance neZero_three : NeZero 3 := ⟨Nat.succ_ne_zero 2⟩

-- Mathlib's instance at the whole numbers among the source's constants. It is named once
-- here, for a definition that finds it unnamed keeps a copy of its proof, and the literals
-- of two modules are then different terms.
instance atLeastTwo_two : Nat.AtLeastTwo 2 := inferInstance
instance atLeastTwo_five : Nat.AtLeastTwo 5 := inferInstance
instance atLeastTwo_ten : Nat.AtLeastTwo 10 := inferInstance
instance atLeastTwo_fifteen : Nat.AtLeastTwo 15 := inferInstance
instance atLeastTwo_eightySeven : Nat.AtLeastTwo 87 := inferInstance
instance atLeastTwo_hundred : Nat.AtLeastTwo 100 := inferInstance

inductive KernelErrorCode where
  | none
  | qpFailure
  | invalidState
  | boundaryViolation
  deriving DecidableEq, Repr

structure KinematicLimits (K : Type) where
  qMin : Fin DOF → K
  qMax : Fin DOF → K
  qDotMax : Fin DOF → K
  torqueMax : Fin DOF → K
  minObstacleDistance : Ieee K

structure ManipulatorState (K : Type) where
  q : Fin DOF → Ieee K
  qDot : Fin DOF → Ieee K
  endEffectorPos : Fin 3 → Ieee K

structure Obstacle (K : Type) where
  position : Fin 3 → Ieee K
  radius : Ieee K

structure SafetyOutput (K : Type) where
  safeTorque : Fin DOF → Ieee K
  interventionTriggered : Bool
  barrierMargin : Ieee K

/-- One inequality `coef * u ≥ bound` of the system `A * u ≥ b`. -/
structure ConstraintRow (K : Type) where
  coef : Fin DOF → K
  bound : K

variable {K : Type} [Field K] [LinearOrder K]

section Barrier

variable [SquareRoot K]

def norm3 (v : Fin 3 → Ieee K) : Ieee K :=
  (v 0 * v 0 + v 1 * v 1 + v 2 * v 2).sqrt

def computeObstacleBarrier (limits : KinematicLimits K) (eePos : Fin 3 → Ieee K)
    (obs : Obstacle K) : Ieee K :=
  let dist := norm3 (fun i => eePos i - obs.position i)
  dist - (obs.radius + limits.minObstacleDistance)

/-- The reported margin: a running minimum over all obstacles, from 100. -/
def minMargin (limits : KinematicLimits K) (eePos : Fin 3 → Ieee K)
    (obstacles : List (Obstacle K)) : Ieee K :=
  obstacles.foldl
    (fun smallest obs =>
      let margin := computeObstacleBarrier limits eePos obs
      if margin < smallest then margin else smallest)
    (.fin 100)

end Barrier

section Rows

/-- Torque ceiling of the upper joint limit: full torque far away, the ramp
`870 * h` inside 0.15 rad, and the 0.33 Nm cut-off inside 0.005 rad. -/
def maxAllowedTorque (limits : KinematicLimits K) (q : Fin DOF → K) (i : Fin DOF) : K :=
  let hUpper := limits.qMax i - q i
  if hUpper < 0.15 then
    let ramp := stdClamp (hUpper * 10 * 87) (-87) 87
    if hUpper ≤ 0.005 then min ramp 0.33 else ramp
  else limits.torqueMax i

def minAllowedTorque (limits : KinematicLimits K) (q : Fin DOF → K) (i : Fin DOF) : K :=
  let hLower := q i - limits.qMin i
  if hLower < 0.15 then
    let ramp := stdClamp (-hLower * 10 * 87) (-87) 87
    if hLower ≤ 0.005 then max ramp (-0.33) else ramp
  else -limits.torqueMax i

def upperRow (limits : KinematicLimits K) (q : Fin DOF → K) (i : Fin DOF) : ConstraintRow K :=
  ⟨Pi.single i (-1), -maxAllowedTorque limits q i⟩

def lowerRow (limits : KinematicLimits K) (q : Fin DOF → K) (i : Fin DOF) : ConstraintRow K :=
  ⟨Pi.single i 1, minAllowedTorque limits q i⟩

variable [SquareRoot K]

/-- Joint-5 bound imposed by the first obstacle. -/
def obstacleTorqueBound (limits : KinematicLimits K) (eePos : Fin 3 → Ieee K)
    (obs : Obstacle K) : K :=
  if computeObstacleBarrier limits eePos obs < .fin 0.05 then 0.05 else limits.torqueMax 5

/-- With no obstacle the last row of the zeroed system stays `0 * u ≥ 0`. -/
def obstacleRow (limits : KinematicLimits K) (eePos : Fin 3 → Ieee K) :
    List (Obstacle K) → ConstraintRow K
  | [] => ⟨0, 0⟩
  | obs :: _ => ⟨Pi.single 5 (-1), -obstacleTorqueBound limits eePos obs⟩

def constraintRows (limits : KinematicLimits K) (q : Fin DOF → K) (eePos : Fin 3 → Ieee K)
    (obstacles : List (Obstacle K)) : List (ConstraintRow K) :=
  (List.finRange DOF).flatMap (fun i => [upperRow limits q i, lowerRow limits q i]) ++
    [obstacleRow limits eePos obstacles]

end Rows

section Solver

def ConstraintRow.violation (r : ConstraintRow K) (u : Fin DOF → K) : K :=
  r.bound - r.coef ⬝ᵥ u

/-- Collect violated rows in order, stopping once there are as many as joints. -/
def activeRows (u : Fin DOF → K) :
    List (ConstraintRow K) → List (ConstraintRow K) → List (ConstraintRow K)
  | [], active => active
  | r :: rest, active =>
    if 1e-4 < r.violation u then
      let active := active ++ [r]
      if DOF ≤ active.length then active else activeRows u rest active
    else activeRows u rest active

def activeMatrix (active : List (ConstraintRow K)) : Matrix (Fin active.length) (Fin DOF) K :=
  fun a => (active.get a).coef

def activeBound (active : List (ConstraintRow K)) : Fin active.length → K :=
  fun a => (active.get a).bound

def saturate (limits : KinematicLimits K) (u : Fin DOF → K) : Fin DOF → K :=
  fun i => stdClamp (u i) (-limits.torqueMax i) (limits.torqueMax i)

variable [ExactSolver K]

/-- The dual solve over the active rows: `u_des - A_actᵀ * lambda`. -/
def projectActive (uDes : Fin DOF → K) (active : List (ConstraintRow K)) : Fin DOF → K :=
  let aAct := activeMatrix active
  let rhs := aAct *ᵥ uDes - activeBound active
  let lambda := ExactSolver.solve (ridgeGram aAct 1e-6) rhs
  uDes - aActᵀ *ᵥ lambda

/-- The source's boolean result with its output argument: no exit returns `none`. -/
def solveActiveSetQp (limits : KinematicLimits K) (uDes : Fin DOF → K)
    (rows : List (ConstraintRow K)) : Option (Fin DOF → K) :=
  if rows.isEmpty then some uDes
  else if rows.all (fun r => decide (r.violation uDes ≤ 1e-4)) then some uDes
  else
    let active := activeRows uDes rows []
    if active.isEmpty then some uDes
    else some (saturate limits (projectActive uDes active))

variable [SquareRoot K]

def filterTorques (limits : KinematicLimits K) (state : ManipulatorState K)
    (nominalTorques : Fin DOF → Ieee K) (obstacles : List (Obstacle K)) :
    Except KernelErrorCode (SafetyOutput K) :=
  match Ieee.allFinite? state.q, Ieee.allFinite? state.qDot, Ieee.allFinite? nominalTorques with
  | some q, some _, some nominal =>
    match solveActiveSetQp limits nominal (constraintRows limits q state.endEffectorPos obstacles) with
    | some safe =>
      let change := SquareRoot.sqrt ((safe - nominal) ⬝ᵥ (safe - nominal))
      .ok ⟨fun i => .fin (safe i), decide (1e-2 < change),
        minMargin limits state.endEffectorPos obstacles⟩
    | none => .error .qpFailure
  | _, _, _ => .error .invalidState

end Solver

end NeuroKinetic
