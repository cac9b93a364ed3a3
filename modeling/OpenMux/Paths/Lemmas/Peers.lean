import OpenMux.Lib.PyText
import OpenMux.Paths.Lemmas.Shape
import OpenMux.Paths.Shape

/-!
# Keys and addresses
-/

namespace OpenMux.Paths

open Py

variable {host connId serverId serverId' key : Text} {port : UInt16} {now : ℕ} {conn conn' : ConnRecord} {n : Node}

/-! ## Addresses -/

theorem colon_notMem_decimal (m : ℤ) : ':' ∉ decimal m := by
  intro h
  rcases mem_decimal h with h | h <;> cases h

/-- Three pieces and a rest. -/
theorem split_three {a b c d : Text} {k : ℕ} (ha : ':' ∉ a) (hb : ':' ∉ b) (hc : ':' ∉ c) :
    split ':' (k + 3) (a ++ ':' :: (b ++ ':' :: (c ++ ':' :: d))) = a :: b :: c :: split ':' k d := by
  rw [split_piece ha, split_piece hb, split_piece hc]

theorem int_decimal_port (port : UInt16) : int (decimal port.toNat) = some (port.toNat : ℤ) := by
  apply int_str
  have hlt := port.toNat_lt
  have hlen : (Nat.toDigits 10 port.toNat).length ≤ 5 := (Nat.length_toDigits_le_iff (by decide) (by decide)).mpr (by omega)
  have hmax : ¬ maxStrDigits < (Nat.toDigits 10 port.toNat).length := by
    unfold maxStrDigits
    omega
  simp [str, decimal, hmax]

theorem split_outboundId (port : UInt16) (now : ℕ) (h : ':' ∉ host) : ∃ k, split ':' (outboundId host port now).length (outboundId host port now) =
    "out".toList :: host :: decimal port.toNat :: split ':' k (decimal now) := by
  have hout : ':' ∉ "out".toList := by decide
  have hid : outboundId host port now =
      "out".toList ++ ':' :: (host ++ ':' :: (decimal port.toNat ++ ':' :: decimal now)) := rfl
  obtain ⟨k, hk⟩ : ∃ k, (outboundId host port now).length = k + 3 := by
    apply Nat.exists_eq_add_of_le'
    simp only [hid, List.length_append, List.length_cons]
    omega
  exists k
  rw [hk, hid]
  exact split_three hout h (colon_notMem_decimal _)

theorem dialled_outboundId (h : ':' ∉ host) : dialled (outboundId host port now) = some (host, (port.toNat : ℤ)) := by
  obtain ⟨k, hsplit⟩ := split_outboundId port now h
  unfold dialled
  rw [hsplit]
  cases htime : split ':' k (decimal now) with
  | nil => exact absurd htime (split_ne_nil ':' k _)
  | cons time rest => simp [int_decimal_port]

/-- An address that is read from an id has no colon in its host. -/
theorem notMem_of_dialled {port : ℤ} (h : dialled connId = some (host, port)) : ':' ∉ host := by
  unfold dialled at h
  split at h
  · rename_i direction host' port' time rest hsplit
    obtain ⟨k, -, hk⟩ := Option.map_eq_some_iff.mp h
    cases hk
    exact notMem_split le_rfl (by rw [hsplit]; simp)
  · cases h

/-! ## Keys -/

theorem keyOf_identity (h : conn.identity = some serverId) : Node.keyOf connId (some conn) = "node:".toList ++ serverId := by
  unfold ConnRecord.identity at h
  unfold Node.keyOf
  cases hhs : orNone conn.handshakeServerId with
  | some sid =>
      rw [hhs, Option.some_or] at h
      cases h
      simp [hhs]
  | none =>
      rw [hhs, Option.none_or] at h
      simp [hhs, h]

theorem keyOf_congr {connId' : Text} (h : conn.identity = some serverId) (h' : conn'.identity = some serverId') :
    Node.keyOf connId (some conn) = Node.keyOf connId' (some conn') ↔ serverId = serverId' := by
  rw [keyOf_identity h, keyOf_identity h']
  simp

/-! ## The group of a peer -/

theorem inGroup_set {g : Group} {key' : Text} :
    ({ n with groups := n.groups.set key' g } : Node).InGroup key connId ↔ if key = key' then g.Has connId else n.InGroup key connId := by
  simp only [Node.InGroup, Dict.get?_set]
  split <;> simp

theorem inGroup_putGroup {g : Group} {key' : Text} :
    (n.putGroup key' g).InGroup key connId ↔ if key = key' then g.Has connId else n.InGroup key connId := by
  unfold Node.putGroup
  split
  · rename_i hnil
    have hnone : ¬ g.Has connId := by simp [Group.Has, Dict.keys, hnil]
    simp only [Node.InGroup, Dict.get?_pop]
    split <;> simp [hnone]
  · exact inGroup_set

theorem derivePeerKey_putGroup {g : Group} {key' : Text} : (n.putGroup key' g).derivePeerKey connId = n.derivePeerKey connId := rfl

/-- The group of a connection is found. -/
theorem find_current {before : Text} (h : ∀ key, n.InGroup key connId ↔ key = before) : n.rekeyFindCurrentKey connId = some before := by
  obtain ⟨g, hg, hhas⟩ := (h before).mpr rfl
  obtain ⟨info, hinfo⟩ := Group.has_iff.mp hhas
  unfold Node.rekeyFindCurrentKey
  cases hfind : n.groups.entries.find? fun e => (e.2.conns.get? connId).isSome with
  | none =>
      have hnone := List.find?_eq_none.mp hfind (before, g) (Dict.mem_entries.mpr hg)
      simp [hinfo] at hnone
  | some e =>
      have he : n.groups.get? e.1 = some e.2 := Dict.mem_entries.mp (List.mem_of_find?_eq_some hfind)
      have hsome := List.find?_some hfind
      have hin : e.2.Has connId := Group.has_iff.mpr (Option.isSome_iff_exists.mp hsome)
      have hkey : e.1 = before := (h e.1).mp ⟨e.2, he, hin⟩
      rw [Option.map_some, hkey]

/-- A connection in one group is in the group of its peer afterwards, and in no other. -/
theorem inGroup_rekey {before : Text} (h : ∀ key, n.InGroup key connId ↔ key = before) :
    (n.rekeyMpathConnection connId).InGroup key connId ↔ key = n.derivePeerKey connId := by
  obtain ⟨g, hg, hhas⟩ := (h before).mpr rfl
  obtain ⟨info, hinfo⟩ := Group.has_iff.mp hhas
  unfold Node.rekeyMpathConnection
  simp only [find_current h]
  split
  · rename_i hsame
    rw [h, hsame]
  · rename_i hne
    simp only [hg, hinfo, Option.bind_some, Option.map_some]
    rw [inGroup_set]
    split
    · rename_i hkey
      exact iff_of_true (Dict.mem_keys_set.mpr (.inl rfl)) hkey
    · rename_i hkey
      refine iff_of_false ?_ hkey
      rw [inGroup_putGroup]
      split
      · exact fun hleft => (Group.has_remove.mp hleft).1 rfl
      · rename_i hother
        exact fun hin => hother ((h key).mp hin)

end OpenMux.Paths
