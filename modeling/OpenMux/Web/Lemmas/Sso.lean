import OpenMux.Lib.PyText
import OpenMux.Web.Sso

/-!
# Which trust headers are accepted
-/

namespace OpenMux.Web

open Py

variable {Priv Pub : Type} {lib : SsoLibrary Priv Pub} {server : SsoServer Pub} {header : Text} {claims claims' : Dict Text Value} {now : ℤ}

namespace SsoServer

/-! ## The window -/

theorem window_iff {skew : ℤ} : ssoClaimsInValidWindow lib claims skew now = true ↔
    ∃ iat exp, claimedTime lib claims "iat".toList now = some iat ∧ claimedTime lib claims "exp".toList now = some exp ∧
      iat - skew ≤ now ∧ now ≤ exp + skew := by
  unfold ssoClaimsInValidWindow
  split
  · rename_i iat exp hiat hexp
    simp only [Bool.not_eq_true', Bool.or_eq_false_iff, decide_eq_false_iff_not, not_lt]
    constructor
    · rintro ⟨hfrom, hto⟩
      exact ⟨iat, exp, hiat, hexp, hfrom, hto⟩
    · rintro ⟨iat', exp', hiat', hexp', hfrom, hto⟩
      rw [hiat] at hiat'
      rw [hexp] at hexp'
      cases hiat'
      cases hexp'
      exact ⟨hfrom, hto⟩
  · rename_i hnone
    simp only [Bool.false_eq_true, false_iff]
    rintro ⟨iat, exp, hiat, hexp, -⟩
    exact hnone iat exp hiat hexp

theorem claimedTime_of_carries {key : Text} {time : ℤ} (h : Carries lib claims key time) : claimedTime lib claims key now = some time := by
  obtain ⟨value, hvalue, htime⟩ := h
  rw [claimedTime, hvalue, Option.elim_some, htime]

theorem claimedTime_of_none {key : Text} (h : claims.get? key = none) : claimedTime lib claims key now = some now := by
  rw [claimedTime, h, Option.elim_none]

/-- A time is carried or it is now. -/
theorem claimedTime_inv {key : Text} {time : ℤ} (h : claimedTime lib claims key now = some time) :
    Carries lib claims key time ∨ claims.get? key = none ∧ time = now := by
  unfold claimedTime at h
  cases hget : claims.get? key with
  | none =>
      rw [hget, Option.elim_none] at h
      exact .inr ⟨rfl, (Option.some.inj h).symm⟩
  | some value =>
      rw [hget, Option.elim_some] at h
      exact .inl ⟨value, hget, h⟩

theorem readable_of_claimedTime {key : Text} {time : ℤ} (h : claimedTime lib claims key now = some time) : Readable lib claims key := by
  intro value hvalue
  rw [claimedTime, hvalue, Option.elim_some] at h
  rw [h]
  rfl

theorem carries_of_readable {key : Text} (h : Readable lib claims key) (hsome : (claims.get? key).isSome) :
    ∃ time, Carries lib claims key time := by
  obtain ⟨value, hvalue⟩ := Option.isSome_iff_exists.mp hsome
  obtain ⟨time, htime⟩ := Option.isSome_iff_exists.mp (h value hvalue)
  exact ⟨time, value, hvalue, htime⟩

/-! ## Acceptance -/

/-- What is accepted: right signatures within the window, and for the second format a node that is allowed. -/
theorem verify_iff : server.verifySsoHeader lib header now = some claims ↔ ∃ format, server.Authentic lib header claims format ∧
    (format = .v1e → server.ssoNodeAllowed lib (claims.get? "node".toList) = true) ∧
    ssoClaimsInValidWindow lib claims server.ssoMaxSkewSec now = true := by
  constructor
  · intro h
    unfold verifySsoHeader at h
    split at h
    · rename_i ver payloadB64 sigHex hsplit
      obtain ⟨hver, h⟩ := Option.ite_none_right_eq_some.mp h
      unfold verifySsoV1 at h
      split at h
      · rename_i c secret hdecode hsecret
        obtain ⟨⟨hwindow, hmac⟩, h⟩ := Option.ite_none_right_eq_some.mp h
        cases h
        obtain ⟨hsecret, hne⟩ := Option.filter_eq_some_iff.mp hsecret
        refine ⟨.v1, ⟨payloadB64, secret, ?_, hsecret, of_decide_eq_true hne, hdecode⟩, fun hf => (by cases hf), hwindow⟩
        rw [hsplit, hver, hmac]
      · cases h
    · rename_i ver kid payloadB64 sigB64 hsplit
      obtain ⟨hver, h⟩ := Option.ite_none_right_eq_some.mp h
      unfold verifySsoV1e at h
      split at h
      · rename_i c pub payload sig hdecode hpub hpayload hsig
        obtain ⟨⟨hwindow, hnode, hverify⟩, h⟩ := Option.ite_none_right_eq_some.mp h
        cases h
        refine ⟨.v1e, ⟨kid, payloadB64, sigB64, pub, payload, sig, ?_, hpub, hpayload, ?_, hsig, hverify⟩, fun _ => hnode, hwindow⟩
        · rw [hsplit, hver]
        · rw [ssoDecodePayload, hpayload, Option.bind_some] at hdecode
          exact hdecode
      · cases h
    · cases h
  · rintro ⟨format, hauthentic, hnode, hwindow⟩
    cases format with
    | v1 =>
        obtain ⟨payloadB64, secret, hsplit, hsecret, hne, hdecode⟩ := hauthentic
        have hfilter : server.ssoSecret.filter (· ≠ []) = some secret :=
          Option.filter_eq_some_iff.mpr ⟨hsecret, decide_eq_true hne⟩
        rw [verifySsoHeader, hsplit]
        dsimp only
        rw [if_pos rfl, verifySsoV1, hdecode, hfilter]
        exact if_pos ⟨hwindow, rfl⟩
    | v1e =>
        obtain ⟨kid, payloadB64, sigB64, pub, payload, sig, hsplit, hpub, hpayload, hloads, hsig, hverify⟩ := hauthentic
        have hdecode : ssoDecodePayload lib payloadB64 = some claims := by rw [ssoDecodePayload, hpayload, Option.bind_some, hloads]
        rw [verifySsoHeader, hsplit]
        dsimp only
        rw [if_pos rfl, verifySsoV1e, hdecode, hpub, hpayload, hsig]
        exact if_pos ⟨hwindow, hnode rfl, hverify⟩

/-- A header has one content. -/
theorem authentic_unique {format format' : SsoFormat} (h : server.Authentic lib header claims format)
    (h' : server.Authentic lib header claims' format') : claims = claims' := by
  cases format with
  | v1 =>
      obtain ⟨payloadB64, secret, hsplit, -, -, hdecode⟩ := h
      cases format' with
      | v1 =>
          obtain ⟨payloadB64', secret', hsplit', -, -, hdecode'⟩ := h'
          rw [hsplit] at hsplit'
          simp only [List.cons.injEq, true_and, and_true] at hsplit'
          rw [hsplit'.1, hdecode'] at hdecode
          exact (Option.some.inj hdecode).symm
      | v1e =>
          obtain ⟨kid, payloadB64', sigB64, pub, payload, sig, hsplit', -⟩ := h'
          rw [hsplit] at hsplit'
          exact absurd (congrArg List.length hsplit') (by simp)
  | v1e =>
      obtain ⟨kid, payloadB64, sigB64, pub, payload, sig, hsplit, -, hpayload, hloads, -⟩ := h
      cases format' with
      | v1 =>
          obtain ⟨payloadB64', secret', hsplit', -⟩ := h'
          rw [hsplit] at hsplit'
          exact absurd (congrArg List.length hsplit') (by simp)
      | v1e =>
          obtain ⟨kid', payloadB64', sigB64', pub', payload', sig', hsplit', -, hpayload', hloads', -⟩ := h'
          rw [hsplit] at hsplit'
          simp only [List.cons.injEq, true_and, and_true] at hsplit'
          rw [hsplit'.2.1, hpayload'] at hpayload
          cases hpayload
          rw [hloads'] at hloads
          exact (Option.some.inj hloads).symm

/-! ## Headers that are as they should be -/

/-- Where a time is missing, there is one at which the header is within its window. -/
theorem exists_window (hskew : 0 ≤ server.ssoMaxSkewSec) (hiat : Readable lib claims "iat".toList) (hexp : Readable lib claims "exp".toList)
    (hmissing : ¬ ((claims.get? "iat".toList).isSome ∧ (claims.get? "exp".toList).isSome)) :
    ∃ now, ssoClaimsInValidWindow lib claims server.ssoMaxSkewSec now = true := by
  by_cases hiat' : (claims.get? "iat".toList).isSome
  · have hexp' : claims.get? "exp".toList = none := Option.not_isSome_iff_eq_none.mp fun h => hmissing ⟨hiat', h⟩
    obtain ⟨iat, hcarries⟩ := carries_of_readable hiat hiat'
    exact ⟨iat - server.ssoMaxSkewSec, window_iff.mpr ⟨iat, _, claimedTime_of_carries hcarries, claimedTime_of_none hexp', le_rfl, by omega⟩⟩
  · have hiat'' := Option.not_isSome_iff_eq_none.mp hiat'
    by_cases hexp' : (claims.get? "exp".toList).isSome
    · obtain ⟨exp, hcarries⟩ := carries_of_readable hexp hexp'
      exact ⟨exp + server.ssoMaxSkewSec,
        window_iff.mpr ⟨_, exp, claimedTime_of_none hiat'', claimedTime_of_carries hcarries, by omega, le_rfl⟩⟩
    · have hexp'' := Option.not_isSome_iff_eq_none.mp hexp'
      exact ⟨0, window_iff.mpr ⟨_, _, claimedTime_of_none hiat'', claimedTime_of_none hexp'', by omega, by omega⟩⟩

theorem Right.sane (h : server.Right lib header) : server.Sane lib header where
  dated := by
    intro format claims hauthentic hnode hskew hiat hexp
    by_contra hmissing
    obtain ⟨now, hwindow⟩ := exists_window hskew hiat hexp hmissing
    obtain ⟨iat, exp, ⟨v, hv, -⟩, ⟨w, hw, -⟩, -⟩ := h.fresh now claims (verify_iff.mpr ⟨format, hauthentic, hnode, hwindow⟩)
    exact hmissing ⟨by rw [hv]; rfl, by rw [hw]; rfl⟩
  known := by
    intro format claims iat exp hauthentic hnode hiat hexp hopen
    have hwindow : ssoClaimsInValidWindow lib claims server.ssoMaxSkewSec (iat - server.ssoMaxSkewSec) = true :=
      window_iff.mpr ⟨iat, exp, claimedTime_of_carries hiat, claimedTime_of_carries hexp, le_rfl, hopen⟩
    exact h.named _ claims (verify_iff.mpr ⟨format, hauthentic, hnode, hwindow⟩)

/-- An accepted header carries its times, if it is as it should be. -/
theorem Sane.carries (h : server.Sane lib header) (haccepted : server.verifySsoHeader lib header now = some claims) :
    ∃ iat exp, Carries lib claims "iat".toList iat ∧ Carries lib claims "exp".toList exp ∧ iat - server.ssoMaxSkewSec ≤ now ∧
      now ≤ exp + server.ssoMaxSkewSec := by
  obtain ⟨format, hauthentic, hnode, hwindow⟩ := verify_iff.mp haccepted
  obtain ⟨iat, exp, hiat, hexp, hfrom, hto⟩ := window_iff.mp hwindow
  have hdated : 0 ≤ server.ssoMaxSkewSec → (claims.get? "iat".toList).isSome ∧ (claims.get? "exp".toList).isSome := fun hskew =>
    h.dated format claims hauthentic hnode hskew (readable_of_claimedTime hiat) (readable_of_claimedTime hexp)
  rcases claimedTime_inv hiat with hiat | ⟨hnone, rfl⟩
  · rcases claimedTime_inv hexp with hexp | ⟨hnone, rfl⟩
    · exact ⟨iat, exp, hiat, hexp, hfrom, hto⟩
    · have hsome := (hdated (by omega)).2
      rw [hnone] at hsome
      cases hsome
  · have hsome := (hdated (by omega)).1
    rw [hnone] at hsome
    cases hsome

theorem Sane.right (h : server.Sane lib header) : server.Right lib header where
  proved := by
    intro now claims haccepted
    obtain ⟨format, hauthentic, -⟩ := verify_iff.mp haccepted
    exact ⟨format, hauthentic⟩
  fresh := fun now claims haccepted => h.carries haccepted
  named := by
    intro now claims haccepted
    obtain ⟨iat, exp, hiat, hexp, hfrom, hto⟩ := h.carries haccepted
    obtain ⟨format, hauthentic, hnode, -⟩ := verify_iff.mp haccepted
    exact h.known format claims iat exp hauthentic hnode hiat hexp (hfrom.trans hto)
  expires := by
    by_cases hever : ∃ now claims, server.verifySsoHeader lib header now = some claims
    · obtain ⟨now, claims, haccepted⟩ := hever
      obtain ⟨iat, exp, -, hexp, -⟩ := h.carries haccepted
      exists exp + server.ssoMaxSkewSec
      intro later hlater
      cases haccepted' : server.verifySsoHeader lib header later with
      | none => rfl
      | some claims' =>
          obtain ⟨format, hauthentic, -⟩ := verify_iff.mp haccepted
          obtain ⟨format', hauthentic', -⟩ := verify_iff.mp haccepted'
          obtain ⟨-, exp', -, hexp', -, hto⟩ := h.carries haccepted'
          rw [← authentic_unique hauthentic hauthentic'] at hexp'
          have hsame : some _ = some _ := (show claimedTime lib _ _ 0 = _ from claimedTime_of_carries hexp).symm.trans (claimedTime_of_carries hexp')
          cases hsame
          omega
    · exists 0
      intro later _
      cases haccepted : server.verifySsoHeader lib header later with
      | none => rfl
      | some claims => exact absurd ⟨later, claims, haccepted⟩ hever

/-! ## Headers that are issued -/

theorem semicolon_notMem_encode (data : List UInt8) : ';' ∉ Base64.encode data := by
  intro h
  exact Base64.forall_mem_encode (P := (· ≠ ';')) Base64.char_ne_semicolon data ';' h rfl

theorem split_v1 {a b : Text} (ha : ';' ∉ a) (hb : ';' ∉ b) :
    split ';' ("v1".toList ++ ';' :: (a ++ ';' :: b)).length ("v1".toList ++ ';' :: (a ++ ';' :: b)) = ["v1".toList, a, b] := by
  have hver : ';' ∉ "v1".toList := by decide
  obtain ⟨k, hk⟩ : ∃ k, ("v1".toList ++ ';' :: (a ++ ';' :: b)).length = k + 2 := by
    apply Nat.exists_eq_add_of_le'
    simp only [List.length_append, List.length_cons]
    omega
  rw [hk, split_piece hver, split_piece ha, split_self hb]

theorem split_v1e {kid a b : Text} (hkid : ';' ∉ kid) (ha : ';' ∉ a) (hb : ';' ∉ b) :
    split ';' ("v1e".toList ++ ';' :: (kid ++ ';' :: (a ++ ';' :: b))).length
      ("v1e".toList ++ ';' :: (kid ++ ';' :: (a ++ ';' :: b))) = ["v1e".toList, kid, a, b] := by
  have hver : ';' ∉ "v1e".toList := by decide
  obtain ⟨k, hk⟩ : ∃ k, ("v1e".toList ++ ';' :: (kid ++ ';' :: (a ++ ';' :: b))).length = k + 3 := by
    apply Nat.exists_eq_add_of_le'
    simp only [List.length_append, List.length_cons]
    omega
  rw [hk, split_piece hver, split_piece hkid, split_piece ha, split_self hb]

/-- A key id with the separator spoils the header. -/
theorem verify_of_semicolon {kid a b : Text} (hkid : ';' ∈ kid) :
    server.verifySsoHeader lib ("v1e".toList ++ ';' :: (kid ++ ';' :: (a ++ ';' :: b))) now = none := by
  have hcount : 4 ≤ ("v1e".toList ++ ';' :: (kid ++ ';' :: (a ++ ';' :: b))).count ';' := by
    have hpos := List.count_pos_iff.mpr hkid
    simp only [List.count_append, List.count_cons_self]
    omega
  have hlength := length_split ';' (le_refl ("v1e".toList ++ ';' :: (kid ++ ';' :: (a ++ ';' :: b))).length)
  unfold verifySsoHeader
  split
  · rename_i hsplit
    rw [hsplit] at hlength
    simp only [List.length_cons, List.length_nil] at hlength
    omega
  · rename_i hsplit
    rw [hsplit] at hlength
    simp only [List.length_cons, List.length_nil] at hlength
    omega
  · rfl

theorem window_ssoClaims {user node : Text} {issuedAt skew : ℤ} (hint : ∀ n, lib.int (.int n) = some n)
    (hfrom : issuedAt - skew ≤ now) (hto : now ≤ issuedAt + 60 + skew) :
    ssoClaimsInValidWindow lib (ssoClaims user node issuedAt) skew now = true := by
  have hiat : (ssoClaims user node issuedAt).get? "iat".toList = some (.int issuedAt) := rfl
  have hexp : (ssoClaims user node issuedAt).get? "exp".toList = some (.int (issuedAt + 60)) := rfl
  exact window_iff.mpr ⟨issuedAt, issuedAt + 60, claimedTime_of_carries ⟨_, hiat, hint _⟩, claimedTime_of_carries ⟨_, hexp, hint _⟩,
    hfrom, hto⟩

theorem nodeAllowed_ssoClaims {user node : Text} {issuedAt : ℤ} {muxcon : SsoPeers Pub} (hstr : ∀ t, lib.str (.str t) = t)
    (hmuxcon : server.muxcon = some muxcon) (hnode : muxcon.serverId = node) :
    server.ssoNodeAllowed lib ((ssoClaims user node issuedAt).get? "node".toList) = true := by
  have hget : (ssoClaims user node issuedAt).get? "node".toList = some (.str node) := rfl
  rw [hget, ssoNodeAllowed]
  split
  · rfl
  · rename_i value hvalue
    obtain ⟨hvalue, -⟩ := Option.filter_eq_some_iff.mp hvalue
    cases hvalue
    rw [hmuxcon]
    simp [hstr, hnode]

/-- The key id of a header that is signed with a key does not have the separator, or the header has no window. -/
def Separable (server : SsoServer Pub) (p : SsoProxy Priv) : Prop := p.ssoSecret.filter (· ≠ []) = none →
  ∀ kid, p.authKeyId = some kid → ';' ∉ kid ∨ 60 + 2 * server.ssoMaxSkewSec < 0

/-- A header that a trusted proxy issues is accepted within its window. -/
theorem issued_iff {p : SsoProxy Priv} {username : Option Text} {node : Text} {issuedAt : ℤ}
    (hissued : proxySsoHeader lib p username node issuedAt = some header) (htrust : server.Trusts lib p node)
    (hreads : Reads lib (ssoClaims ((username.filter (· ≠ [])).getD "sso".toList) node issuedAt)) :
    (∀ now, issuedAt - server.ssoMaxSkewSec ≤ now → now ≤ issuedAt + 60 + server.ssoMaxSkewSec →
      server.verifySsoHeader lib header now =
        some (ssoClaims ((username.filter (· ≠ [])).getD "sso".toList) node issuedAt)) ↔ server.Separable p := by
  unfold proxySsoHeader at hissued
  unfold Trusts at htrust
  dsimp only at hissued
  generalize hclaims : ssoClaims ((username.filter (· ≠ [])).getD "sso".toList) node issuedAt = claims at hissued hreads ⊢
  have hpayload := Base64.decode_encode (lib.dumps claims)
  cases hsecret : p.ssoSecret.filter (· ≠ []) with
  | some secret =>
      rw [hsecret] at hissued htrust
      cases hissued
      refine iff_of_true (fun now hfrom hto => ?_) (fun hnone => ?_)
      · refine verify_iff.mpr ⟨.v1, ⟨Base64.encode (lib.dumps claims), secret, ?_, htrust, ?_, ?_⟩, fun hf => (by cases hf), ?_⟩
        · exact split_v1 (semicolon_notMem_encode _) (hreads.hexdigest _ _)
        · exact of_decide_eq_true (Option.filter_eq_some_iff.mp hsecret).2
        · rw [ssoDecodePayload, hpayload, Option.bind_some, hreads.loads]
        · rw [← hclaims]
          exact window_ssoClaims hreads.int hfrom hto
      · rw [hsecret] at hnone
        cases hnone
  | none =>
      rw [hsecret] at hissued htrust
      obtain ⟨priv, kid, muxcon, pub, hpriv, hkid, hmuxcon, hnode, hpub, hverify⟩ := htrust
      rw [hpriv, hkid] at hissued
      cases hfilter : (some kid).filter (· ≠ []) with
      | none =>
          rw [hfilter] at hissued
          cases hissued
      | some kid' =>
          obtain ⟨hsame, -⟩ := Option.filter_eq_some_iff.mp hfilter
          cases hsame
          rw [hfilter] at hissued
          cases hissued
          have hseparable : server.Separable p ↔ ';' ∉ kid ∨ 60 + 2 * server.ssoMaxSkewSec < 0 := by
            constructor
            · exact fun h => h hsecret kid hkid
            · intro h _ kid' hkid'
              rw [hkid] at hkid'
              cases hkid'
              exact h
          rw [hseparable]
          by_cases hsemi : ';' ∈ kid
          · simp only [verify_of_semicolon hsemi, hsemi, not_true_eq_false, false_or]
            constructor
            · intro h
              by_contra hopen
              exact absurd (h (issuedAt - server.ssoMaxSkewSec) le_rfl (by omega)) (by simp)
            · intro hclosed now hfrom hto
              omega
          · refine iff_of_true (fun now hfrom hto => ?_) (.inl hsemi)
            refine verify_iff.mpr ⟨.v1e, ⟨kid, Base64.encode (lib.dumps claims), Base64.encode (lib.sign priv (lib.dumps claims)), pub,
              lib.dumps claims, lib.sign priv (lib.dumps claims), ?_, ?_, hpayload, hreads.loads, Base64.decode_encode _, hverify _⟩,
              fun _ => ?_, ?_⟩
            · exact split_v1e hsemi (semicolon_notMem_encode _) (semicolon_notMem_encode _)
            · rw [ssoFindPubkey, hmuxcon, Option.bind_some, hpub]
            · rw [← hclaims]
              exact nodeAllowed_ssoClaims hreads.str hmuxcon hnode
            · rw [← hclaims]
              exact window_ssoClaims hreads.int hfrom hto

end SsoServer

end OpenMux.Web
