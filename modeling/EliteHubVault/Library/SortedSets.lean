import EliteHubVault.Library.OrderedMap

/-!
# Sorted sets with a time to live

A Redis sorted set maps members to scores, here integers. A set without members does not
exist, so it has no time to live either; `EXPIRE` gives a key a deadline on the server's clock,
after which the key is gone. The commands have the names that Redis gives them.

Scripts use such a set as a log in which the score of a member says when it lapses: they first
remove the members whose score is at most a bound that only grows. `Tracks` relates the set to
the log from which nothing lapses and whose key has no time to live. When the deadline stays
ahead of the scores it takes nothing away that the next removal would have kept
(`Tracks.evict`).
-/

set_option autoImplicit false

namespace EliteHubVault.Library

variable {μ : Type*}

/-- A sorted set, and when its key expires. -/
structure SortedSet (μ : Type*) where
  scores : OrderedMap μ ℤ
  deadline : Option ℤ

/-! ## Members above a bound -/

namespace OrderedMap

/-- The members whose score is above a bound. -/
def keepAbove (bound : ℤ) (scores : OrderedMap μ ℤ) : OrderedMap μ ℤ where
  entries := scores.entries.filter fun entry => bound < entry.2
  nodupKeys := scores.nodupKeys.sublist (List.filter_sublist.map Prod.fst)

@[simp] theorem mem_keepAbove {bound : ℤ} {scores : OrderedMap μ ℤ} {entry : μ × ℤ} :
    entry ∈ (scores.keepAbove bound).entries ↔ entry ∈ scores.entries ∧ bound < entry.2 := by
  simp [keepAbove]

theorem keepAbove_keepAbove {bound bound' : ℤ} (grows : bound ≤ bound') (scores : OrderedMap μ ℤ) :
    (scores.keepAbove bound).keepAbove bound' = scores.keepAbove bound' := by
  refine ext ?_
  simp only [keepAbove, List.filter_filter]
  refine List.filter_congr fun entry _ => ?_
  by_cases above : bound' < entry.2
  · simp [above, lt_of_le_of_lt grows above]
  · simp [above]

theorem size_keepAbove (bound : ℤ) (scores : OrderedMap μ ℤ) :
    (scores.keepAbove bound).size = scores.entries.countP fun entry => bound < entry.2 :=
  List.countP_eq_length_filter.symm

theorem keepAbove_eq_empty {bound : ℤ} {scores : OrderedMap μ ℤ}
    (lapsed : ∀ entry ∈ scores.entries, entry.2 ≤ bound) : scores.keepAbove bound = empty := by
  refine ext (List.filter_eq_nil_iff.mpr fun entry member => ?_)
  simpa using lapsed entry member

variable [DecidableEq μ]

theorem get_keepAbove {bound : ℤ} {scores : OrderedMap μ ℤ} {member : μ} {score : ℤ} :
    (scores.keepAbove bound).get member = some score ↔
      scores.get member = some score ∧ bound < score := by
  simp only [get_eq_some_iff, mem_keepAbove]

/-- A new score above the bound: of a member that is new, or was above it. -/
theorem keepAbove_set {bound : ℤ} {scores : OrderedMap μ ℤ} {member : μ} {score : ℤ}
    (above : bound < score) (live : ∀ old, scores.get member = some old → bound < old) :
    (scores.set member score).keepAbove bound = (scores.keepAbove bound).set member score := by
  have each : ∀ entries : List (μ × ℤ), (entries.map Prod.fst).Nodup →
      (∀ old, getEntry member entries = some old → bound < old) →
      (setEntry member score entries).filter (fun entry => bound < entry.2) =
        setEntry member score (entries.filter fun entry => bound < entry.2) := by
    intro entries distinct live
    induction entries with
    | nil => simp [setEntry, above]
    | cons head rest ih =>
        obtain ⟨other, old⟩ := head
        obtain ⟨absent, distinct⟩ := List.nodup_cons.mp distinct
        by_cases same : other = member
        · have kept : bound < old := live old (by simp [getEntry, same])
          simp [setEntry, same, above, kept]
        · have later := ih distinct fun score found => live score (by simpa [getEntry, same] using found)
          by_cases kept : bound < old
          · simp [setEntry, same, kept, later]
          · simp [setEntry, same, kept, later]
  exact ext (each scores.entries scores.nodupKeys live)

theorem keepAbove_delete (bound : ℤ) (scores : OrderedMap μ ℤ) (member : μ) :
    (scores.delete member).keepAbove bound = (scores.keepAbove bound).delete member := by
  refine ext ?_
  simp only [keepAbove, delete, List.filter_filter]
  exact List.filter_congr fun entry _ => Bool.and_comm _ _

/-- The entries after a new member has been added. -/
theorem entries_set_of_new {α : Type*} {m : OrderedMap μ α} {member : μ} (value : α)
    (new : member ∉ m.keys) : (m.set member value).entries = m.entries ++ [(member, value)] := by
  have each : ∀ entries : List (μ × α), member ∉ entries.map Prod.fst →
      setEntry member value entries = entries ++ [(member, value)] := by
    intro entries absent
    induction entries with
    | nil => rfl
    | cons head rest ih =>
        obtain ⟨other, later⟩ := not_or.mp (List.mem_cons.not.mp absent)
        rw [setEntry, if_neg (Ne.symm other), ih later]
        rfl
  exact each m.entries new

theorem size_set (m : OrderedMap μ ℤ) (member : μ) (score : ℤ) :
    (m.set member score).size = if member ∈ m.keys then m.size else m.size + 1 := by
  have keys := congrArg List.length (keys_setEntry member score m.entries)
  rw [List.length_map] at keys
  rw [size, set, keys, OrderedMap.keys]
  split
  · exact List.length_map _
  · rw [List.length_append, List.length_map]
    rfl

theorem size_delete_le (m : OrderedMap μ ℤ) (member : μ) : (m.delete member).size ≤ m.size :=
  List.length_filter_le _ _

end OrderedMap

/-! ## Commands -/

namespace SortedSet

/-- A key that does not exist. -/
def empty : SortedSet μ := ⟨.empty, none⟩

/-- A set without members is deleted. -/
def ofScores (scores : OrderedMap μ ℤ) (deadline : Option ℤ) : SortedSet μ :=
  ⟨scores, if scores.size = 0 then none else deadline⟩

/-- What a script finds at a time of the server: a key past its deadline is gone. -/
def live (time : ℤ) (set : SortedSet μ) : SortedSet μ :=
  if set.deadline.any fun deadline => deadline < time then empty else set

/-- `ZREMRANGEBYSCORE key -inf bound`. -/
def zremrangebyscore (bound : ℤ) (set : SortedSet μ) : SortedSet μ :=
  ofScores (set.scores.keepAbove bound) set.deadline

/-- `ZCARD`. -/
def zcard (set : SortedSet μ) : ℕ := set.scores.size

/-- The score of the entry that `ZRANGE key 0 0 WITHSCORES` returns. -/
def zrangeFirstScore (set : SortedSet μ) : Option ℤ := (set.scores.entries.map Prod.snd).min?

/-- `EXPIRE`, with the deadline that the seconds give. A key that does not exist stays so. -/
def expire (deadline : ℤ) (set : SortedSet μ) : SortedSet μ := ofScores set.scores (some deadline)

variable [DecidableEq μ]

/-- `ZADD`. -/
def zadd (member : μ) (score : ℤ) (set : SortedSet μ) : SortedSet μ :=
  { set with scores := set.scores.set member score }

/-- `ZSCORE`. -/
def zscore (member : μ) (set : SortedSet μ) : Option ℤ := set.scores.get member

/-- `ZREM`. -/
def zrem (member : μ) (set : SortedSet μ) : SortedSet μ :=
  ofScores (set.scores.delete member) set.deadline

omit [DecidableEq μ] in
@[simp] theorem scores_ofScores (scores : OrderedMap μ ℤ) (deadline : Option ℤ) :
    (ofScores scores deadline).scores = scores := rfl

omit [DecidableEq μ] in
theorem deadline_ofScores {scores : OrderedMap μ ℤ} {entry : μ × ℤ}
    (member : entry ∈ scores.entries) (deadline : Option ℤ) :
    (ofScores scores deadline).deadline = deadline := by
  have some : scores.size ≠ 0 := fun none => by
    rw [List.length_eq_zero_iff.mp none] at member
    cases member
  exact if_neg some

theorem zrem_of_zcard_eq_zero {member : μ} {set : SortedSet μ}
    (nobody : (set.zrem member).zcard = 0) : set.zrem member = empty := by
  have scores : set.scores.delete member = .empty :=
    OrderedMap.ext (List.length_eq_zero_iff.mp nobody)
  rw [zrem, scores]
  rfl

/-! ## A set and its log -/

/-- The set holds the members of the log above a bound that lies below `bound`, and its
deadline is `lead` ahead of their scores. -/
structure Tracks (lead bound : ℤ) (log : OrderedMap μ ℤ) (set : SortedSet μ) : Prop where
  scores : ∃ evicted ≤ bound, set.scores = log.keepAbove evicted
  deadline : ∀ entry ∈ set.scores.entries, ∃ deadline, set.deadline = some deadline ∧
    entry.2 + lead ≤ deadline

namespace Tracks

variable {lead bound : ℤ} {log : OrderedMap μ ℤ} {set : SortedSet μ}

omit [DecidableEq μ] in
theorem empty : Tracks lead bound (OrderedMap.empty : OrderedMap μ ℤ) SortedSet.empty :=
  ⟨⟨bound, le_rfl, rfl⟩, fun _ member => nomatch member⟩

omit [DecidableEq μ] in
theorem mono {lead' bound' : ℤ} (tracks : Tracks lead bound log set) (less : lead' ≤ lead)
    (grows : bound ≤ bound') : Tracks lead' bound' log set := by
  obtain ⟨evicted, below, scores⟩ := tracks.scores
  refine ⟨⟨evicted, below.trans grows, scores⟩, fun entry member => ?_⟩
  obtain ⟨deadline, known, ahead⟩ := tracks.deadline entry member
  exact ⟨deadline, known, by omega⟩

omit [DecidableEq μ] in
/-- A deadline takes away only what lies at or below the bound of the moment. -/
theorem live {time : ℤ} (tracks : Tracks lead bound log set) (soon : time ≤ bound + lead) :
    Tracks lead bound log (set.live time) := by
  unfold SortedSet.live
  split
  · rename_i gone
    obtain ⟨deadline, known, past⟩ := (Option.any_eq_true _ _).mp gone
    obtain ⟨evicted, below, scores⟩ := tracks.scores
    refine ⟨⟨bound, le_rfl, ?_⟩, fun _ member => nomatch member⟩
    have lapsed : ∀ entry ∈ set.scores.entries, entry.2 ≤ bound := by
      intro entry member
      obtain ⟨deadline', known', ahead⟩ := tracks.deadline entry member
      obtain rfl := Option.some.inj (known.symm.trans known')
      have earlier := of_decide_eq_true past
      omega
    rw [scores] at lapsed
    rw [← OrderedMap.keepAbove_keepAbove below, OrderedMap.keepAbove_eq_empty lapsed]
    rfl
  · exact tracks

omit [DecidableEq μ] in
/-- **A removal leaves the members of the log above its bound**, whether or not the key has
expired before. -/
theorem evict {time : ℤ} (tracks : Tracks lead bound log set) (soon : time ≤ bound + lead) :
    Tracks lead bound log ((set.live time).zremrangebyscore bound) ∧
      ((set.live time).zremrangebyscore bound).scores = log.keepAbove bound ∧
      (set.zremrangebyscore bound).scores = log.keepAbove bound := by
  have removed : ∀ {found : SortedSet μ}, Tracks lead bound log found →
      (found.zremrangebyscore bound).scores = log.keepAbove bound := by
    intro found tracks
    obtain ⟨evicted, below, scores⟩ := tracks.scores
    rw [zremrangebyscore, scores_ofScores, scores, OrderedMap.keepAbove_keepAbove below]
  have found := tracks.live soon
  refine ⟨⟨⟨bound, le_rfl, removed found⟩, fun entry member => ?_⟩, removed found, removed tracks⟩
  have kept : ((set.live time).zremrangebyscore bound).deadline = (set.live time).deadline :=
    deadline_ofScores member _
  rw [kept]
  exact found.deadline entry (OrderedMap.mem_keepAbove.mp member).1

/-- A score that is set, with a deadline ahead of all scores. -/
theorem of_zadd {member : μ} {score deadline : ℤ} (evicted : set.scores = log.keepAbove bound)
    (above : bound < score) (live : ∀ old, log.get member = some old → bound < old)
    (last : ∀ entry ∈ set.scores.entries, entry.2 ≤ score) (ahead : score + lead ≤ deadline) :
    Tracks lead bound (log.set member score) ((set.zadd member score).expire deadline) := by
  have scores : ((set.zadd member score).expire deadline).scores =
      (log.set member score).keepAbove bound := by
    rw [OrderedMap.keepAbove_set above live, ← evicted]
    rfl
  refine ⟨⟨bound, le_rfl, scores⟩, fun entry inSet => ⟨deadline, ?_, ?_⟩⟩
  · exact deadline_ofScores inSet _
  · obtain rfl | ⟨-, old⟩ := OrderedMap.mem_entries_set.mp inSet
    · exact ahead
    · have earlier := last entry old
      omega

theorem zrem {member : μ} (tracks : Tracks lead bound log set) :
    Tracks lead bound (log.delete member) (set.zrem member) := by
  obtain ⟨evicted, below, scores⟩ := tracks.scores
  refine ⟨⟨evicted, below, ?_⟩, fun entry inSet => ?_⟩
  · rw [OrderedMap.keepAbove_delete, ← scores]
    rfl
  · have kept : (set.zrem member).deadline = set.deadline := deadline_ofScores inSet _
    rw [kept]
    exact tracks.deadline entry (List.mem_filter.mp inSet).1

end Tracks

end SortedSet

end EliteHubVault.Library
