import ModbusProxy.Convert.Defined

/-!
# Phases

The energy meter has the same registers for each of three phases, and `huawei_get_values`
converts each phase by its own statements. If these are the same for every phase,
exchanging the registers of the phases exchanges the outputs.

## The model

A permutation of the phases acts on the voltages, the currents and the real powers, two
registers for each phase (`PhasesPermuted`), and on the four arrays that are made of
them (`ValuesPermuted`). Every other register, and every other value, is the same.

## What is proved

`phases_iff`: the currents and the powers follow every permutation. The voltages do not,
since the third is made of the first phase's register (`voltageSource`): the outputs
follow a permutation exactly if the phases that it mixes up for this reason have the
same voltage (`source_permuted_iff` lists them), and each phase's outputs are one function
of its own registers exactly if the third voltage is the first.
-/

namespace ModbusProxy.Convert

open Memory Endian Poll Runs

/-- Where the per-phase registers begin: the voltages, the currents and the real powers. -/
def phaseBases : List ℕ := [37101, 37107, 37132]

/-- The number in the registers of a phase. -/
def phaseValue (reg : ℕ → UInt16) (base : ℕ) (k : Fin 3) : Int32 := (u32 reg (base + 2 * k.val)).toInt32

/-- The registers that `huawei_get_values` reads. -/
def huaweiAddresses : List ℕ :=
  huaweiCalls.flatMap fun p => (List.range p.length.toNat).map fun j => p.address.toNat + j

/-- The registers of the phases are exchanged, and the others that are read are the same. -/
structure PhasesPermuted (σ : Equiv.Perm (Fin 3)) (reg reg' : ℕ → UInt16) : Prop where
  /-- Phase `σ k` has what phase `k` had. -/
  phase : ∀ base ∈ phaseBases, ∀ k : Fin 3, ∀ j < 2, reg' (base + 2 * (σ k).val + j) = reg (base + 2 * k.val + j)
  /-- No other register differs. -/
  other : ∀ a ∈ huaweiAddresses, (∀ base ∈ phaseBases, a < base ∨ base + 6 ≤ a) → reg' a = reg a

/-- The values of the phases are exchanged, and the others are the same. -/
structure ValuesPermuted (σ : Equiv.Perm (Fin 3)) (v v' : PvValues) : Prop where
  /-- `voltage`. -/
  voltage : ∀ k, v'.energyMeter.voltage (σ k) = v.energyMeter.voltage k
  /-- `current`. -/
  current : ∀ k, v'.energyMeter.current (σ k) = v.energyMeter.current k
  /-- `power_real`. -/
  powerReal : ∀ k, v'.energyMeter.powerReal (σ k) = v.energyMeter.powerReal k
  /-- `power_apparent`. -/
  powerApparent : ∀ k, v'.energyMeter.powerApparent (σ k) = v.energyMeter.powerApparent k
  /-- The other members of the meter. -/
  meter : { v'.energyMeter with
      voltage := v.energyMeter.voltage
      current := v.energyMeter.current
      powerReal := v.energyMeter.powerReal
      powerApparent := v.energyMeter.powerApparent } = v.energyMeter
  /-- The inverter. -/
  inverter : v'.inverter = v.inverter
  /-- The battery. -/
  battery : v'.battery = v.battery

/-! ### The values of the phases -/

/-- The phase of which the voltage is taken for each phase. -/
def voltageSource : Fin 3 → Fin 3 := ![0, 1, 0]

/-- The voltage of a register's value. -/
def volts (x : Int32) : Float32 := float x.toInt / float 10

/-- The current of a register's value. -/
def amperes (x : Int32) : Float32 := -float x.toInt / float 100

/-- The real power of a register's value. -/
def watts (x : Int32) : Float32 := -float x.toInt

/-- The apparent power of a register's value and a power factor. -/
def voltAmperes (x : Int32) (powerSf : Int16) : Float32 :=
  -(float x.toInt / float (if powerSf = 0 then 1 else powerSf).toInt)

variable (reg : ℕ → UInt16)

/-- The arrays of the meter, each made of the phases' registers by one function. -/
theorem huaweiOf_phases (hmeter : reg 37125 ≠ 0) (k : Fin 3) :
    (huaweiOf reg).energyMeter.voltage k = volts (phaseValue reg 37101 (voltageSource k)) ∧
      (huaweiOf reg).energyMeter.current k = amperes (phaseValue reg 37107 k) ∧
      (huaweiOf reg).energyMeter.powerReal k = watts (phaseValue reg 37132 k) ∧
      (huaweiOf reg).energyMeter.powerApparent k = voltAmperes (phaseValue reg 37132 k) (reg 37117).toInt16 := by
  simp only [huaweiOf, huaweiGetValues, huaweiMeter, read_meter, meterOf_meterType, ne_eq, hmeter, not_false_eq_true,
    if_true, update_three, meterOf_voltageL1, meterOf_voltageL2, meterOf_currentL1, meterOf_currentL2,
    meterOf_currentL3, meterOf_powerRealL1, meterOf_powerRealL2, meterOf_powerRealL3, meterOf_powerSf]
  fin_cases k <;> exact ⟨rfl, rfl, rfl, rfl⟩

/-! ### Under a permutation -/

section Permuted

variable {reg} {reg' : ℕ → UInt16} {σ : Equiv.Perm (Fin 3)}

theorem PhasesPermuted.phaseValue_eq (hperm : PhasesPermuted σ reg reg') {base : ℕ} (hbase : base ∈ phaseBases)
    (k : Fin 3) : phaseValue reg' base (σ k) = phaseValue reg base k := by
  have h0 := hperm.phase base hbase k 0 (by omega)
  have h1 := hperm.phase base hbase k 1 (by omega)
  simp only [Nat.add_zero] at h0
  simp only [phaseValue, u32, h0, h1]

/-- Two registers that are no phase's. -/
theorem PhasesPermuted.u32_eq (hperm : PhasesPermuted σ reg reg') {a : ℕ}
    (hread : a ∈ huaweiAddresses ∧ a + 1 ∈ huaweiAddresses)
    (hother : ∀ base ∈ phaseBases, (a < base ∨ base + 6 ≤ a) ∧ (a + 1 < base ∨ base + 6 ≤ a + 1)) :
    u32 reg' a = u32 reg a := by
  have h0 := hperm.other a hread.1 fun base hbase => (hother base hbase).1
  have h1 := hperm.other (a + 1) hread.2 fun base hbase => (hother base hbase).2
  simp only [u32, h0, h1]

/-- The inverter has no phases. -/
theorem PhasesPermuted.inverter_eq (hperm : PhasesPermuted σ reg reg') :
    (huaweiOf reg').inverter = (huaweiOf reg).inverter := by
  simp only [huaweiOf, huaweiGetValues, huaweiInverter, huaweiBattery, read_int16, read_uint16, read_int32,
    read_uint32]
  simp (disch := decide) only [hperm.u32_eq, hperm.other]

/-- Nor has the battery. -/
theorem PhasesPermuted.battery_eq (hperm : PhasesPermuted σ reg reg') :
    (huaweiOf reg').battery = (huaweiOf reg).battery := by
  simp only [huaweiOf, huaweiGetValues, huaweiBattery, read_uint16, read_int32, read_uint32]
  simp (disch := decide) only [hperm.u32_eq, hperm.other]

/-- The members of the meter that are no arrays. -/
theorem PhasesPermuted.meter_eq (hperm : PhasesPermuted σ reg reg') :
    { (huaweiOf reg').energyMeter with
      voltage := (huaweiOf reg).energyMeter.voltage
      current := (huaweiOf reg).energyMeter.current
      powerReal := (huaweiOf reg).energyMeter.powerReal
      powerApparent := (huaweiOf reg).energyMeter.powerApparent } = (huaweiOf reg).energyMeter := by
  simp only [huaweiOf, huaweiGetValues, huaweiInverter, huaweiMeter, read_meter, read_int32, meterOf_totalRealPower,
    meterOf_gridFreq, meterOf_energyRealCons, meterOf_energyRealProd, meterOf_energyReactiveCons]
  simp (disch := decide) only [hperm.u32_eq, hperm.other]

/-- On registers: only the voltages may fail to follow. -/
theorem huaweiOf_permuted_iff (hperm : PhasesPermuted σ reg reg') (hmeter : reg 37125 ≠ 0) :
    ValuesPermuted σ (huaweiOf reg) (huaweiOf reg') ↔
      ∀ k, volts (phaseValue reg 37101 (σ.symm (voltageSource (σ k)))) =
        volts (phaseValue reg 37101 (voltageSource k)) := by
  have htype : reg' 37125 = reg 37125 := hperm.other 37125 (by decide) (by decide)
  have hsf : reg' 37117 = reg 37117 := hperm.other 37117 (by decide) (by decide)
  obtain ⟨hvoltages, hcurrents, hpowers⟩ :
      37101 ∈ phaseBases ∧ 37107 ∈ phaseBases ∧ 37132 ∈ phaseBases := by decide
  have hvoltage (k : Fin 3) :
      (huaweiOf reg').energyMeter.voltage k = volts (phaseValue reg 37101 (σ.symm (voltageSource k))) := by
    obtain ⟨hk, -, -, -⟩ := huaweiOf_phases reg' (htype ▸ hmeter) k
    rw [hk, ← hperm.phaseValue_eq hvoltages, Equiv.apply_symm_apply]
  constructor
  · intro h k
    obtain ⟨hk, -, -, -⟩ := huaweiOf_phases reg hmeter k
    have hfollow := h.voltage k
    rwa [hvoltage, hk] at hfollow
  · intro h
    refine ⟨fun k => ?_, fun k => ?_, fun k => ?_, fun k => ?_, hperm.meter_eq, hperm.inverter_eq, hperm.battery_eq⟩
    all_goals
      obtain ⟨hk, hcurrent, hreal, happarent⟩ := huaweiOf_phases reg hmeter k
      obtain ⟨-, hcurrent', hreal', happarent'⟩ := huaweiOf_phases reg' (htype ▸ hmeter) (σ k)
    · rw [hvoltage, hk, h]
    · rw [hcurrent', hcurrent, hperm.phaseValue_eq hcurrents]
    · rw [hreal', hreal, hperm.phaseValue_eq hpowers]
    · rw [happarent', happarent, hperm.phaseValue_eq hpowers, hsf]

end Permuted

/-- Every permutation of the three phases. -/
theorem perm_three (σ : Equiv.Perm (Fin 3)) : σ = 1 ∨ σ = Equiv.swap 0 1 ∨ σ = Equiv.swap 0 2 ∨ σ = Equiv.swap 1 2 ∨
    σ = finRotate 3 ∨ σ = (finRotate 3).symm := by
  revert σ
  decide

/-- What a permutation asks of the phases, given where it takes the voltages from. -/
theorem source_permuted_of_map {α : Type} (f : Fin 3 → α) {σ : Equiv.Perm (Fin 3)} (x y z : Fin 3)
    (hmap : ∀ k, σ.symm (voltageSource (σ k)) = ![x, y, z] k) :
    (∀ k, f (σ.symm (voltageSource (σ k))) = f (voltageSource k)) ↔ f x = f 0 ∧ f y = f 1 ∧ f z = f 0 := by
  simp only [hmap, Fin.forall_fin_succ, IsEmpty.forall_iff, and_true]
  rfl

/-- Which phases must have the same voltage: none for the identity, the two exchanged for
an exchange with the first phase, and all three for every other permutation. -/
theorem source_permuted_iff {α : Type} (f : Fin 3 → α) (σ : Equiv.Perm (Fin 3)) :
    (∀ k, f (σ.symm (voltageSource (σ k))) = f (voltageSource k)) ↔
      σ = 1 ∨ σ = Equiv.swap 0 1 ∧ f 0 = f 1 ∨ σ = Equiv.swap 0 2 ∧ f 0 = f 2 ∨ f 0 = f 1 ∧ f 0 = f 2 := by
  have hone : Equiv.swap (0 : Fin 3) 1 ≠ 1 ∧ Equiv.swap (0 : Fin 3) 2 ≠ 1 ∧ Equiv.swap (1 : Fin 3) 2 ≠ 1 ∧
      finRotate 3 ≠ 1 ∧ (finRotate 3).symm ≠ 1 := by decide
  have hfirst : Equiv.swap (0 : Fin 3) 2 ≠ Equiv.swap 0 1 ∧ Equiv.swap (1 : Fin 3) 2 ≠ Equiv.swap 0 1 ∧
      finRotate 3 ≠ Equiv.swap 0 1 ∧ (finRotate 3).symm ≠ Equiv.swap 0 1 := by decide
  have hthird : Equiv.swap (0 : Fin 3) 1 ≠ Equiv.swap 0 2 ∧ Equiv.swap (1 : Fin 3) 2 ≠ Equiv.swap 0 2 ∧
      finRotate 3 ≠ Equiv.swap 0 2 ∧ (finRotate 3).symm ≠ Equiv.swap 0 2 := by decide
  rcases perm_three σ with rfl | rfl | rfl | rfl | rfl | rfl
  · exact iff_of_true (fun k => rfl) (.inl rfl)
  · rw [source_permuted_of_map f 0 1 1 (by decide)]
    simp only [hone, hthird, false_and, false_or, true_and]
    grind
  · rw [source_permuted_of_map f 2 1 2 (by decide)]
    simp only [hone, hfirst, false_and, false_or, true_and]
    grind
  · rw [source_permuted_of_map f 0 0 2 (by decide)]
    simp only [hone, hfirst, hthird, false_and, false_or]
    grind
  · rw [source_permuted_of_map f 0 2 2 (by decide)]
    simp only [hone, hfirst, hthird, false_and, false_or]
    grind
  · rw [source_permuted_of_map f 1 1 2 (by decide)]
    simp only [hone, hfirst, hthird, false_and, false_or]
    grind

/-- Each phase's outputs are one function of its own registers exactly if the third voltage
happens to be the first. -/
theorem own_phases_iff (hmeter : reg 37125 ≠ 0) :
    (∀ k, (huaweiOf reg).energyMeter.voltage k = volts (phaseValue reg 37101 k) ∧
      (huaweiOf reg).energyMeter.current k = amperes (phaseValue reg 37107 k) ∧
      (huaweiOf reg).energyMeter.powerReal k = watts (phaseValue reg 37132 k) ∧
      (huaweiOf reg).energyMeter.powerApparent k = voltAmperes (phaseValue reg 37132 k) (reg 37117).toInt16) ↔
      volts (phaseValue reg 37101 2) = volts (phaseValue reg 37101 0) := by
  constructor
  · intro h
    obtain ⟨hk, -, -, -⟩ := huaweiOf_phases reg hmeter 2
    exact (h 2).1.symm.trans hk
  · intro h k
    obtain ⟨hk, hcurrent, hreal, happarent⟩ := huaweiOf_phases reg hmeter k
    refine ⟨hk.trans ?_, hcurrent, hreal, happarent⟩
    fin_cases k
    · rfl
    · rfl
    · exact h.symm

/-- **Phase symmetry.** If the phases' registers in one state are a permutation of those in
another, and the meter has three phases, the values follow the permutation exactly if
each output's voltage is taken, before and after, from phases of the same voltage: the
currents and the powers always follow, and the third voltage is the first phase's. That is
no condition for the identity, one on two phases for an exchange of the first with another,
and one on all three else. And each phase's outputs are one function of its own registers
exactly if the third phase has the voltage of the first. -/
theorem phases_iff (evs evs' : List Event)
    (hfound : ((run World.step .init evs).findClient .huawei).isSome = true)
    (hfound' : ((run World.step .init evs').findClient .huawei).isSome = true) {σ : Equiv.Perm (Fin 3)}
    (hperm : PhasesPermuted σ ((run World.step .init evs).registers .huawei)
      ((run World.step .init evs').registers .huawei))
    (hmeter : (run World.step .init evs).registers .huawei 37125 ≠ 0) (b b' : Before HuaweiLocals PvValues) :
    let reg := (run World.step .init evs).registers .huawei
    let meter := (huaweiIn (run World.step .init evs) b).energyMeter
    let v := fun k => volts (phaseValue reg 37101 k)
    (ValuesPermuted σ (huaweiIn (run World.step .init evs) b) (huaweiIn (run World.step .init evs') b') ↔
        ∀ k, v (σ.symm (voltageSource (σ k))) = v (voltageSource k)) ∧
      ((∀ k, v (σ.symm (voltageSource (σ k))) = v (voltageSource k)) ↔
        σ = 1 ∨ σ = Equiv.swap 0 1 ∧ v 0 = v 1 ∨ σ = Equiv.swap 0 2 ∧ v 0 = v 2 ∨ v 0 = v 1 ∧ v 0 = v 2) ∧
      ((∀ k, meter.voltage k = v k ∧ meter.current k = amperes (phaseValue reg 37107 k) ∧
          meter.powerReal k = watts (phaseValue reg 37132 k) ∧
          meter.powerApparent k = voltAmperes (phaseValue reg 37132 k) (reg 37117).toInt16) ↔ v 2 = v 0) := by
  intro reg meter v
  have hmeter' : meter = (huaweiOf reg).energyMeter := congrArg PvValues.energyMeter (huaweiIn_eq evs hfound b)
  refine ⟨?_, source_permuted_iff v σ, ?_⟩
  · rw [huaweiIn_eq evs hfound, huaweiIn_eq evs' hfound']
    exact huaweiOf_permuted_iff hperm hmeter
  · rw [hmeter']
    exact own_phases_iff reg hmeter

/-- A meter with three phases of the given voltages, currents and powers is polled. -/
def meterPolled (voltage current power : Fin 3 → UInt16) : List Event :=
  [.startClient .huawei "inverter" 502,
    .poll 0 ⟨4, deviceReply fun a =>
      if a = 37125 then 1
      else if a = 37102 then voltage 0 else if a = 37104 then voltage 1 else if a = 37106 then voltage 2
      else if a = 37108 then current 0 else if a = 37110 then current 1 else if a = 37112 then current 2
      else if a = 37133 then power 0 else if a = 37135 then power 1 else if a = 37137 then power 2
      else 0⟩]

/-- The second and the third phase are exchanged, which the voltages do not follow. -/
theorem phases_crossed :
    PhasesPermuted (Equiv.swap 1 2)
        ((run World.step .init (meterPolled ![2300, 2310, 2320] ![1, 2, 3] ![4, 5, 6])).registers .huawei)
        ((run World.step .init (meterPolled ![2300, 2320, 2310] ![1, 3, 2] ![4, 6, 5])).registers .huawei) ∧
      ((run World.step .init (meterPolled ![2300, 2310, 2320] ![1, 2, 3] ![4, 5, 6])).registers .huawei) 37125 ≠ 0 ∧
      ¬ ValuesPermuted (Equiv.swap 1 2)
        (huaweiIn (run World.step .init (meterPolled ![2300, 2310, 2320] ![1, 2, 3] ![4, 5, 6])) default)
        (huaweiIn (run World.step .init (meterPolled ![2300, 2320, 2310] ![1, 3, 2] ![4, 6, 5])) default) := by
  refine ⟨⟨by decide +kernel, by decide +kernel⟩, by decide +kernel, fun h => ?_⟩
  exact absurd (congrArg Float32.toBits (h.voltage 2)) (by decide +kernel)

/-- The first two phases have one voltage, and all values follow their exchange. -/
theorem phases_balanced :
    ValuesPermuted (Equiv.swap 0 1)
        (huaweiIn (run World.step .init (meterPolled ![2300, 2300, 2320] ![1, 2, 3] ![4, 5, 6])) default)
        (huaweiIn (run World.step .init (meterPolled ![2300, 2300, 2320] ![2, 1, 3] ![5, 4, 6])) default) := by
  have hfollow := phases_iff (meterPolled ![2300, 2300, 2320] ![1, 2, 3] ![4, 5, 6])
    (meterPolled ![2300, 2300, 2320] ![2, 1, 3] ![5, 4, 6]) (by decide +kernel) (by decide +kernel)
    (σ := Equiv.swap 0 1) ⟨by decide +kernel, by decide +kernel⟩ (by decide +kernel) default default
  refine hfollow.1.mpr (hfollow.2.1.mpr (.inr (.inl ⟨rfl, congrArg volts ?_⟩)))
  decide +kernel

end ModbusProxy.Convert
