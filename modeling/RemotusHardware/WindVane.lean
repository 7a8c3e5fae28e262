import RemotusHardware.Base.RelativeError
import RemotusHardware.Update

/-! # The wind vane

A wind vane is a switch that puts one of sixteen resistances in series with a fixed one;
`CWindVane` takes the direction whose voltage is closest to the one it reads.  Its tables and its
loop are calculated in single precision.  All the same the direction is the right one whenever the
voltage read is closer to the exact voltage of that direction than to any other, by a margin of
`2 ^ (-17)` (`direction_closest`).  With the 220 ohms of `main` a reading may be off by 0.0007
of full scale (`direction_main`). -/

namespace RemotusHardware

open CLib Rounding

namespace CWindVane

/-! ### The class -/

/-- Single precision; the numbers here are far from its largest and its smallest. -/
def float (x : ℚ) : ℚ := roundBits 24 x

/-- `x f * 1000.0f`. -/
def kiloOhm (x : ℚ) : ℚ := float (float x * 1000)

def PARALLEL_R (R1 R2 : ℚ) : ℚ := float (float (R1 * R2) / float (R1 + R2))

structure SDescription where
  DirectionString : String
  DirectionAngle : ℚ
  SensorResistance : ℚ

def g_WindVaneDescriptionTable : List SDescription :=
  [⟨"North", 0, kiloOhm 33⟩,
    ⟨"North North East", 45 / 2, PARALLEL_R (kiloOhm 33) (kiloOhm (82 / 10))⟩,
    ⟨"North East", 45, kiloOhm (82 / 10)⟩,
    ⟨"East North East", 135 / 2, PARALLEL_R (kiloOhm (82 / 10)) 1000⟩,
    ⟨"East", 90, 1000⟩,
    ⟨"East South East", 225 / 2, PARALLEL_R 1000 (kiloOhm (22 / 10))⟩,
    ⟨"South East", 135, kiloOhm (22 / 10)⟩,
    ⟨"South South East", 315 / 2, PARALLEL_R (kiloOhm (22 / 10)) (kiloOhm (39 / 10))⟩,
    ⟨"South", 180, kiloOhm (39 / 10)⟩,
    ⟨"South South West", 405 / 2, PARALLEL_R (kiloOhm (39 / 10)) (kiloOhm 16)⟩,
    ⟨"South West", 225, kiloOhm 16⟩,
    ⟨"West South West", 495 / 2, PARALLEL_R (kiloOhm 16) (kiloOhm 120)⟩,
    ⟨"West", 270, kiloOhm 120⟩,
    ⟨"West North West", 585 / 2, PARALLEL_R (kiloOhm 120) (kiloOhm (649 / 10))⟩,
    ⟨"North West", 315, kiloOhm (649 / 10)⟩,
    ⟨"North North West", 675 / 2, PARALLEL_R (kiloOhm (649 / 10)) (kiloOhm 33)⟩]

/-- `m_WindVaneVoltageTable`, as the constructor fills it. -/
def voltageTable (WindVaneSeriesResistance : ℚ) : List ℚ :=
  g_WindVaneDescriptionTable.map fun pDescription =>
    float (pDescription.SensorResistance /
      float (pDescription.SensorResistance + WindVaneSeriesResistance))

/-- The distance of a voltage from the one read. -/
def delta (WindVaneSensorVoltage voltage : ℚ) : ℚ := |float (voltage - WindVaneSensorVoltage)|

/-- The loop over the entries from the `i`-th on. -/
def closestLoop (WindVaneSensorVoltage : ℚ) : List ℚ → ℕ → ℕ → ℚ → ℕ
  | [], _, ClosestIndex, _ => ClosestIndex
  | voltage :: voltages, i, ClosestIndex, ClosestDelta =>
      let Delta := delta WindVaneSensorVoltage voltage
      if Delta < ClosestDelta then closestLoop WindVaneSensorVoltage voltages (i + 1) i Delta
      else closestLoop WindVaneSensorVoltage voltages (i + 1) ClosestIndex ClosestDelta

def DetermineWindDirectionIndex (voltages : List ℚ) (WindVaneSensorVoltage : ℚ) : ℕ :=
  closestLoop WindVaneSensorVoltage voltages.tail 1 0
    (delta WindVaneSensorVoltage (voltages.headD 0))

/-- What a vane with this series resistance says when it reads this voltage. -/
def GetWindDirectionAsString (WindVaneSeriesResistance WindVaneSensorVoltage : ℚ) : String :=
  (g_WindVaneDescriptionTable.map (·.DirectionString)).getD
    (DetermineWindDirectionIndex (voltageTable WindVaneSeriesResistance) WindVaneSensorVoltage) ""

def GetWindDirectionAsAngle (WindVaneSeriesResistance WindVaneSensorVoltage : ℚ) : ℚ :=
  (g_WindVaneDescriptionTable.map (·.DirectionAngle)).getD
    (DetermineWindDirectionIndex (voltageTable WindVaneSeriesResistance) WindVaneSensorVoltage) 0

theorem directionStrings : g_WindVaneDescriptionTable.map (·.DirectionString) = directions := rfl

/-! ### The closest entry -/

/-- `k` is the first of the indices below `n` at which `f` is least. -/
structure FirstLeast (f : ℕ → ℚ) (n k : ℕ) : Prop where
  lt : k < n
  le : ∀ j < n, f k ≤ f j
  first : ∀ j < k, f k < f j

theorem FirstLeast.succ {f : ℕ → ℚ} {n k : ℕ} (h : FirstLeast f n k) :
    FirstLeast f (n + 1) (if f n < f k then n else k) := by
  split
  · rename_i hlt
    refine ⟨Nat.lt_succ_self n, fun j hj => ?_, fun j hj => hlt.trans_le (h.le j hj)⟩
    rcases Nat.lt_succ_iff_lt_or_eq.mp hj with hj | rfl
    · exact (hlt.trans_le (h.le j hj)).le
    · exact le_rfl
  · rename_i hge
    refine ⟨h.lt.trans (Nat.lt_succ_self n), fun j hj => ?_, h.first⟩
    rcases Nat.lt_succ_iff_lt_or_eq.mp hj with hj | rfl
    · exact h.le j hj
    · exact not_lt.mp hge

theorem closestLoop_spec (v : ℚ) {f : ℕ → ℚ} (voltages : List ℚ) : ∀ {i k : ℕ},
    (∀ j < voltages.length, f (i + j) = delta v (voltages.getD j 0)) → FirstLeast f i k →
      FirstLeast f (i + voltages.length) (closestLoop v voltages i k (f k)) := by
  induction voltages with
  | nil => exact fun _ h => h
  | cons voltage voltages ih =>
      intro i k hf h
      have hi : f i = delta v voltage := hf 0 (Nat.succ_pos _)
      have hrest (j : ℕ) (hj : j < voltages.length) :
          f (i + 1 + j) = delta v (voltages.getD j 0) := by
        rw [Nat.add_assoc, Nat.add_comm 1 j]
        exact hf (j + 1) (Nat.succ_lt_succ hj)
      have hnext := ih hrest h.succ
      rw [List.length_cons, ← Nat.add_assoc, Nat.add_right_comm, closestLoop]
      rw [← hi]
      split
      · rename_i hlt
        rwa [if_pos hlt] at hnext
      · rename_i hge
        rwa [if_neg hge] at hnext

/-- The loop finds the first of the closest entries. -/
theorem determineWindDirectionIndex_spec (v : ℚ) {voltages : List ℚ} (hne : voltages ≠ []) :
    FirstLeast (fun j => delta v (voltages.getD j 0)) voltages.length
      (DetermineWindDirectionIndex voltages v) := by
  obtain ⟨voltage, voltages, rfl⟩ := List.exists_cons_of_ne_nil hne
  have h := closestLoop_spec v (f := fun j => delta v ((voltage :: voltages).getD j 0)) voltages
    (i := 1) (k := 0) (fun j _ => by rw [Nat.add_comm]; rfl)
    ⟨Nat.one_pos, fun j hj => by rw [Nat.lt_one_iff.mp hj],
      fun j hj => absurd hj (Nat.not_lt_zero j)⟩
  rwa [Nat.add_comm] at h

theorem voltageTable_ne_nil (R : ℚ) : voltageTable R ≠ [] := List.cons_ne_nil _ _

theorem determineWindDirectionIndex_lt (R v : ℚ) :
    DetermineWindDirectionIndex (voltageTable R) v < 16 :=
  (determineWindDirectionIndex_spec v (voltageTable_ne_nil R)).lt

/-- The text `updateSensorData` sends is one of the sixteen, whatever is read. -/
theorem ascii_GetWindDirectionAsString (R v : ℚ) : ascii (GetWindDirectionAsString R v) =
    direction
      ⟨DetermineWindDirectionIndex (voltageTable R) v, determineWindDirectionIndex_lt R v⟩ :=
  rfl

/-! ### The voltages -/

/-- The resistances the entries stand for. -/
def parallel (R1 R2 : ℚ) : ℚ := R1 * R2 / (R1 + R2)

def nominalResistances : List ℚ :=
  [33000, parallel 33000 8200, 8200, parallel 8200 1000, 1000, parallel 1000 2200, 2200,
    parallel 2200 3900, 3900, parallel 3900 16000, 16000, parallel 16000 120000, 120000,
    parallel 120000 64900, 64900, parallel 64900 33000]

/-- What the vane puts out when it points in the `i`-th direction, in parts of the supply. -/
def exactVoltage (R : ℚ) (i : ℕ) : ℚ :=
  nominalResistances.getD i 1 / (nominalResistances.getD i 1 + R)

theorem near_float {e x y e' : ℚ} (h : Near e x y) (he : e + (1 + e) / 2 ^ 24 ≤ e') :
    Near e' (float x) y := (h.round 24).mono he

theorem near_kiloOhm {x : ℚ} (h : 0 < x) : Near (3 / 2 ^ 24) (kiloOhm x) (x * 1000) := by
  have hx : Near (1 / 2 ^ 24) (float x) x := near_float (.exact h) (by norm_num)
  have hmul := hx.mul (.exact (show (0 : ℚ) < 1000 by norm_num))
  exact near_float hmul (by norm_num)

theorem near_PARALLEL_R {R1 R2 x y : ℚ} (h₁ : Near (3 / 2 ^ 24) R1 x)
    (h₂ : Near (3 / 2 ^ 24) R2 y) :
    Near (17 / 2 ^ 24) (PARALLEL_R R1 R2) (parallel x y) := by
  have hmul : Near (8 / 2 ^ 24) (float (R1 * R2)) (x * y) := near_float (h₁.mul h₂) (by norm_num)
  have hadd : Near (5 / 2 ^ 24) (float (R1 + R2)) (x + y) := near_float (h₁.add h₂) (by norm_num)
  exact near_float (hmul.div hadd (by norm_num)) (by norm_num)

theorem near_thousand : Near (3 / 2 ^ 24) 1000 1000 :=
  (Near.exact (by norm_num)).mono (by norm_num)

/-- The table of resistances, entry by entry. -/
theorem near_table : List.Forall₂ (fun (pDescription : SDescription) R =>
    Near (17 / 2 ^ 24) pDescription.SensorResistance R) g_WindVaneDescriptionTable
      nominalResistances := by
  have kilo {x y : ℚ} (hx : 0 < x) (hy : x * 1000 = y) : Near (3 / 2 ^ 24) (kiloOhm x) y :=
    hy ▸ near_kiloOhm hx
  have k33 := kilo (x := 33) (y := 33000) (by norm_num) (by norm_num)
  have k82 := kilo (x := 82 / 10) (y := 8200) (by norm_num) (by norm_num)
  have k22 := kilo (x := 22 / 10) (y := 2200) (by norm_num) (by norm_num)
  have k39 := kilo (x := 39 / 10) (y := 3900) (by norm_num) (by norm_num)
  have k16 := kilo (x := 16) (y := 16000) (by norm_num) (by norm_num)
  have k120 := kilo (x := 120) (y := 120000) (by norm_num) (by norm_num)
  have k649 := kilo (x := 649 / 10) (y := 64900) (by norm_num) (by norm_num)
  have weaken {x y : ℚ} (h : Near (3 / 2 ^ 24) x y) : Near (17 / 2 ^ 24) x y :=
    h.mono (by norm_num)
  exact .cons (weaken k33) <| .cons (near_PARALLEL_R k33 k82) <| .cons (weaken k82) <|
    .cons (near_PARALLEL_R k82 near_thousand) <| .cons (weaken near_thousand) <|
    .cons (near_PARALLEL_R near_thousand k22) <| .cons (weaken k22) <|
    .cons (near_PARALLEL_R k22 k39) <| .cons (weaken k39) <| .cons (near_PARALLEL_R k39 k16) <|
    .cons (weaken k16) <| .cons (near_PARALLEL_R k16 k120) <| .cons (weaken k120) <|
    .cons (near_PARALLEL_R k120 k649) <| .cons (weaken k649) <|
    .cons (near_PARALLEL_R k649 k33) .nil

theorem near_voltage {R r s : ℚ} (hR : 0 < R) (h : Near (17 / 2 ^ 24) r s) :
    Near (39 / 2 ^ 24) (float (r / float (r + R))) (s / (s + R)) := by
  have hadd : Near (19 / 2 ^ 24) (float (r + R)) (s + R) :=
    near_float (h.add ((Near.exact hR).mono (by norm_num))) (by norm_num)
  exact near_float (h.div hadd (by norm_num)) (by norm_num)

theorem near_voltageTable {R : ℚ} (hR : 0 < R) {i : ℕ} (hi : i < 16) :
    Near (39 / 2 ^ 24) ((voltageTable R).getD i 0) (exactVoltage R i) := by
  have hentry := near_table.get (i := i) hi hi
  have hvoltage : (voltageTable R).getD i 0 =
      float ((g_WindVaneDescriptionTable.get ⟨i, hi⟩).SensorResistance /
        float ((g_WindVaneDescriptionTable.get ⟨i, hi⟩).SensorResistance + R)) := by
    rw [List.getD_eq_getElem _ _ (show i < (voltageTable R).length from hi)]
    simp only [voltageTable, List.getElem_map, List.get_eq_getElem]
  have hnominal : nominalResistances.getD i 1 = nominalResistances.get ⟨i, hi⟩ :=
    List.getD_eq_getElem _ _ hi
  rw [hvoltage, exactVoltage, hnominal]
  exact near_voltage hR hentry

/-! ### The direction -/

/-- The calculated distance is the exact one, near enough. -/
theorem abs_delta_sub_le {R v : ℚ} (hR : 0 < R) (hv : 0 ≤ v ∧ v ≤ 1) {i : ℕ} (hi : i < 16) :
    |delta v ((voltageTable R).getD i 0) - (|exactVoltage R i - v|)| ≤ 41 / 2 ^ 24 := by
  have hnear := near_voltageTable hR hi
  generalize (voltageTable R).getD i 0 = t at hnear ⊢
  have hpos := hnear.pos
  have hle : exactVoltage R i ≤ 1 := by
    have hr : 0 < nominalResistances.getD i 1 := by
      interval_cases i <;> norm_num [nominalResistances, parallel]
    exact (div_le_one (by linarith)).mpr (by linarith)
  generalize exactVoltage R i = y at hnear hpos hle ⊢
  have herror : |t - y| ≤ 39 / 2 ^ 24 :=
    hnear.error.trans (mul_le_of_le_one_right (by norm_num) hle)
  have habs : |t - v| ≤ 2 := by
    have h := abs_le.mp herror
    rw [abs_le]
    constructor <;> norm_num at h ⊢ <;> linarith [h.1, h.2, hv.1, hv.2]
  have hround : |float (t - v) - (t - v)| ≤ 2 / 2 ^ 24 :=
    (abs_roundBits_sub_le 24 (t - v)).trans (div_le_div_of_nonneg_right habs (by norm_num))
  calc |delta v t - (|y - v|)| ≤ |float (t - v) - (y - v)| := abs_abs_sub_abs_le _ _
    _ = |(float (t - v) - (t - v)) + (t - y)| := by ring_nf
    _ ≤ |float (t - v) - (t - v)| + |t - y| := abs_add_le _ _
    _ ≤ 2 / 2 ^ 24 + 39 / 2 ^ 24 := add_le_add hround herror
    _ = 41 / 2 ^ 24 := by norm_num

/-- Whatever the series resistance, a reading that is closer to the exact voltage of a direction
than to any other, by a margin of `2 ^ (-17)` of full scale, gives that direction. -/
theorem direction_closest {R v : ℚ} (hR : 0 < R) (hv : 0 ≤ v ∧ v ≤ 1) {i : ℕ} (hi : i < 16)
    (hclosest : ∀ j < 16, j ≠ i → |exactVoltage R i - v| + 1 / 2 ^ 17 ≤ |exactVoltage R j - v|) :
    DetermineWindDirectionIndex (voltageTable R) v = i ∧
      GetWindDirectionAsString R v = directions.getD i "" ∧
      GetWindDirectionAsAngle R v = 45 / 2 * i := by
  have hspec := determineWindDirectionIndex_spec v (voltageTable_ne_nil R)
  have hindex : DetermineWindDirectionIndex (voltageTable R) v = i := by
    by_contra hne
    have hlt := hspec.lt
    have hle := hspec.le i hi
    generalize DetermineWindDirectionIndex (voltageTable R) v = k at hne hlt hle
    have hk := (abs_le.mp (abs_delta_sub_le hR hv hlt)).1
    have hi' := (abs_le.mp (abs_delta_sub_le hR hv hi)).2
    have hmargin := hclosest k hlt hne
    have hsum : (41 : ℚ) / 2 ^ 24 + 41 / 2 ^ 24 < 1 / 2 ^ 17 := by norm_num
    linarith only [hk, hi', hmargin, hle, hsum]
  refine ⟨hindex, ?_, ?_⟩
  · rw [GetWindDirectionAsString, hindex, directionStrings]
  · rw [GetWindDirectionAsAngle, hindex]
    interval_cases i <;> norm_num [g_WindVaneDescriptionTable]

/-- With the 220 ohms of `main` the voltages of two directions are 0.0014 of full scale apart. -/
theorem exactVoltage_gap : ∀ i < 16, ∀ j < 16, j ≠ i →
    14 / 10000 + 1 / 2 ^ 17 ≤ |exactVoltage 220 i - exactVoltage 220 j| := by
  decide +kernel

/-- So a reading may be off by 0.0007 of full scale. -/
theorem direction_main {v : ℚ} (hv : 0 ≤ v ∧ v ≤ 1) {i : ℕ} (hi : i < 16)
    (hclose : |v - exactVoltage 220 i| ≤ 7 / 10000) :
    DetermineWindDirectionIndex (voltageTable 220) v = i ∧
      GetWindDirectionAsString 220 v = directions.getD i "" ∧
      GetWindDirectionAsAngle 220 v = 45 / 2 * i := by
  apply direction_closest (by norm_num) hv hi
  intro j hj hne
  have hgap := exactVoltage_gap i hi j hj hne
  have htriangle := abs_sub_le (exactVoltage 220 i) v (exactVoltage 220 j)
  rw [abs_sub_comm v] at hclose
  rw [abs_sub_comm v] at htriangle
  linarith

/-- In the east the switch leaves 1000 of 1220 ohms. -/
theorem direction_closest_east : GetWindDirectionAsString 220 (82 / 100) = "East" :=
  (direction_closest (R := 220) (v := 82 / 100) (i := 4) (by norm_num) (by norm_num) (by decide)
    (by decide +kernel)).2.1

end CWindVane

end RemotusHardware
