import RunWatch.Records.Row
namespace RunWatch

-- Records of a monitored collection. A push patches a record that is there; a poll
-- brings new copies of all of them.
class Monitored (ρ : Type) where
  Patch : Type
  id : ρ → String
  patch : Patch → ρ → ρ
  isStale : ρ → (now staleAfter : Int64) → Bool
  carryForward : (previous polled : ρ) → ρ
  id_patch : ∀ p r, id (patch p r) = id r
  id_carryForward : ∀ previous polled, id (carryForward previous polled) = id polled

end RunWatch
