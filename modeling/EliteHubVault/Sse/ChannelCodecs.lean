import EliteHubVault.Sse.ReadBack
import EliteHubVault.Sse.Wiring

/-!
# Channels and keys as codes

An event type and a routing key are written as a Redis channel, as a demand key and as a key of
the broker's index. The channel and the demand key are read back, whatever text the client has
chosen for the routing key, and none of the three is shared by two pairs.
-/

set_option autoImplicit false

namespace EliteHubVault

/-- The three texts made of an event type and a routing key are codes of them. -/
structure ExactCodes {K : Type} (codec : JsonCodec K) : Prop where
  channel_read : ∀ eventType routingKey, routingKey ≠ "" →
    findRealtimeEventByChannel codec
        ((realtimeEventSpecs codec eventType).getChannel routingKey) =
      some ⟨eventType, realtimeEventSpecs codec eventType, routingKey⟩
  channel_built : ∀ channel found, findRealtimeEventByChannel codec channel = some found →
    (realtimeEventSpecs codec found.eventType).getChannel found.routingKey = channel ∧
      found.spec = realtimeEventSpecs codec found.eventType ∧ found.routingKey ≠ ""
  demandKey_read : ∀ eventType routingKey,
    parseDemandKey (getDemandKey eventType routingKey) = (eventType.text, routingKey)
  channel_inj : ∀ eventType routingKey other otherKey,
    (realtimeEventSpecs codec eventType).getChannel routingKey =
      (realtimeEventSpecs codec other).getChannel otherKey →
    eventType = other ∧ routingKey = otherKey
  demandKey_inj : ∀ eventType routingKey other otherKey,
    getDemandKey eventType routingKey = getDemandKey other otherKey →
    eventType = other ∧ routingKey = otherKey
  channelKey_inj : ∀ (eventType : RealtimeEventType) routingKey (other : RealtimeEventType)
    otherKey, getChannelKey eventType.text routingKey = getChannelKey other.text otherKey →
    eventType = other ∧ routingKey = otherKey

/-- **Channels and demand keys are read back exactly**, and no two pairs share one. -/
theorem exact_codes {K : Type} (codec : JsonCodec K) : ExactCodes codec where
  channel_read eventType routingKey nonempty := by
    refine (findRealtimeEventByChannel_eq_some_iff codec).mpr ⟨?_, nonempty, rfl⟩
    exact getChannel_realtimeEventSpecs codec eventType routingKey
  channel_built channel found decoded := by
    obtain ⟨built, nonempty, spec⟩ := (findRealtimeEventByChannel_eq_some_iff codec).mp decoded
    exact ⟨(getChannel_realtimeEventSpecs codec _ _).trans built.symm, spec, nonempty⟩
  demandKey_read := parseDemandKey_getDemandKey
  channel_inj eventType routingKey other otherKey same := by
    rw [getChannel_realtimeEventSpecs, getChannel_realtimeEventSpecs] at same
    exact RealtimeEventType.getChannel_inj.mp same
  demandKey_inj _ _ _ _ same := getDemandKey_inj.mp same
  channelKey_inj _ _ _ _ same := getChannelKey_inj.mp same

/-- A routing key that looks like a channel of another event type. -/
example : (findRealtimeEventByChannel plainJsonCodec
    (getSystemPowerplayUpdatedPowerChannel "events:factionStateChanged:faction:f")).map
      (fun found => (found.eventType, found.routingKey)) =
    some (.systemPowerplayUpdated, "events:factionStateChanged:faction:f") := by decide +kernel

end EliteHubVault
