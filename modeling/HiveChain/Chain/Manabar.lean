import HiveChain.Chain.ResourceDynamics

/-!
# HiveChain.Chain.Manabar

`util::manabar` (`chain/util/manabar.hpp`): mana that regenerates linearly towards a maximum, for
voting, downvoting and resource credits.

* `regenerate_mana<skip_cap_regen>` adds `max_mana * dt / regen_time` to the current mana, with
  `dt` capped at `regen_time` unless `skip_cap_regen` (the uncapped form resource credits use),
  and keeps the result at most `max_mana`.
* The regenerated amount is computed in `uint128_t`, narrowed to `uint64_t` by
  `fc::uint128_to_uint64`, then checked to fit `int64_t` before the saturating addition
  `fc::signed_sat_add`.
* Times are `uint32_t` seconds; a division by a zero `regen_time` is not modelled (`/` of `Nat`
  gives zero there).
-/

namespace HiveChain
namespace Chain

/-- `manabar_params`. -/
structure ManabarParams where
  maxMana : Int
  regenTime : Nat
deriving DecidableEq, Repr

/-- `manabar_params::validate`. -/
def ManabarParams.validate (params : ManabarParams) : Except String Unit :=
  unless params.maxMana ≥ 0 do throw "max_mana >= 0"

/-- `manabar`. -/
structure Manabar where
  currentMana : Int
  lastUpdateTime : Nat
deriving DecidableEq, Repr

/-- `~u` of a `uint64_t`. -/
def complement64 (u : Nat) : Nat := u ^^^ (2 ^ 64 - 1)

/-- `fc::signed_sat_add` on `int64_t`: the sum of the two `uint64_t`s, or the saturated value
when the sign bit of `~(ux ^ uy) & (ux ^ res)` flags an overflow. -/
def signedSatAdd (x y : Int) : Int :=
  let ux := uint64 x
  let uy := uint64 y
  let res := (ux + uy) % 2 ^ 64
  let sat := if x ≥ 0 then uint64 int64Max else uint64 int64Min
  if int64OfUint64 (complement64 (ux ^^^ uy) &&& (ux ^^^ res)) < 0 then int64OfUint64 sat
  else int64OfUint64 res

/-- `fc::signed_sat_sub` on `int64_t`: the difference of the two `uint64_t`s, or the saturated
value when the sign bit of `(ux ^ uy) & (ux ^ res)` flags an overflow. -/
def signedSatSub (x y : Int) : Int :=
  let ux := uint64 x
  let uy := uint64 y
  let res := (ux + 2 ^ 64 - uy) % 2 ^ 64
  let sat := if x ≥ 0 then uint64 int64Max else uint64 int64Min
  if int64OfUint64 ((ux ^^^ uy) &&& (ux ^^^ res)) < 0 then int64OfUint64 sat
  else int64OfUint64 res

namespace Manabar

/-- `regenerate_mana<skip_cap_regen>( params, now )`. -/
def regenerateMana (skipCapRegen : Bool) (params : ManabarParams) (now : Nat) (m : Manabar) :
    Except String Manabar := do
  params.validate
  unless now ≥ m.lastUpdateTime do throw "now >= last_update_time"
  let dt := now - m.lastUpdateTime
  if m.currentMana ≥ params.maxMana then
    return { currentMana := params.maxMana, lastUpdateTime := now }
  if dt = 0 then return m
  let dt := if !skipCapRegen then (if dt > params.regenTime then params.regenTime else dt) else dt
  let maxManaDt := uint64 (if params.maxMana ≥ 0 then params.maxMana else 0) * dt % 2 ^ 128
  let uRegen ← uint128ToUint64 (maxManaDt / params.regenTime)
  unless uRegen ≤ uint64 int64Max do
    throw "u_regen <= static_cast<uint64_t>( std::numeric_limits< int64_t >::max() )"
  let newCurrentMana := signedSatAdd m.currentMana (int64OfUint64 uRegen)
  return { currentMana := if newCurrentMana > params.maxMana then params.maxMana else newCurrentMana,
           lastUpdateTime := now }

/-- `has_mana( int64_t )`. -/
def hasMana (m : Manabar) (manaNeeded : Int) : Bool := manaNeeded ≤ 0 || m.currentMana ≥ manaNeeded

/-- `use_mana( int64_t, min_mana )`; the default `min_mana` is `0`. -/
def useMana (m : Manabar) (manaUsed : Int) (minMana : Int := 0) : Manabar :=
  let currentMana := signedSatSub m.currentMana manaUsed
  { m with currentMana := if currentMana < minMana then minMana else currentMana }

end Manabar

end Chain
end HiveChain
