import ClusterScaling.Decimal.Numeral
import ClusterScaling.Topology.Basic

/-!
# Regions

Brokers are spread over regions in turn: a broker lives in the region that its id gives as
remainder. A `RegionLayout` names the number of regions and the one that is to survive.
-/

namespace ClusterScaling

/-- Why there is no layout of the given numbers. -/
inductive RegionError where
  | noRegions
  | targetOutOfRange (regions target : UInt32)
deriving DecidableEq, Repr

namespace RegionError

/-- The error in words. -/
def message : RegionError → String
  | noRegions => "region count must be at least 1"
  | targetOutOfRange regions target =>
    s!"region id {Decimal.text target.toNat} is out of range " ++
      s!"for {Decimal.text regions.toNat} regions"

end RegionError

/-- A number of regions, and the region that survives a failover. -/
structure RegionLayout where
  regions : UInt32
  target : UInt32
  target_lt : target < regions
deriving DecidableEq, Repr

namespace RegionLayout

/-- The layout of `regions` regions of which `target` survives. -/
def ofCounts (regions target : UInt32) : Except RegionError RegionLayout :=
  if regions = 0 then .error .noRegions
  else if h : target < regions then .ok ⟨regions, target, h⟩
  else .error (.targetOutOfRange regions target)

/-- The region in which a broker lives. -/
def regionOf (l : RegionLayout) (id : BrokerId) : UInt32 :=
  UInt32.ofNat (id.toInt % (l.regions.toNat : Int)).toNat

theorem regions_pos (l : RegionLayout) : 0 < l.regions.toNat :=
  Nat.lt_of_le_of_lt (Nat.zero_le _) (UInt32.lt_iff_toNat_lt.1 l.target_lt)

theorem toNat_regionOf (l : RegionLayout) (id : BrokerId) :
    ((l.regionOf id).toNat : Int) = id.toInt % l.regions.toNat := by
  have hpos := l.regions_pos
  have hsize := l.regions.toNat_lt
  have hlow := Int.emod_nonneg id.toInt (b := l.regions.toNat) (by omega)
  have hhigh := Int.emod_lt_of_pos id.toInt (b := l.regions.toNat) (by omega)
  rw [regionOf, UInt32.toNat_ofNat_of_lt' (by rw [UInt32.size]; omega)]
  omega

end RegionLayout

namespace Topology

/-- The ids of the brokers outside the surviving region, in the order of the snapshot. -/
def brokersOutside (t : Topology) (l : RegionLayout) : List BrokerId :=
  t.brokerIds.filter fun id => l.regionOf id ≠ l.target

end Topology

end ClusterScaling
