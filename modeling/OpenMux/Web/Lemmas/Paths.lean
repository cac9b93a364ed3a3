import Mathlib
import OpenMux.Web.Middleware

/-!
# Which paths are public

The first piece of every pattern is literal. A path that fits a protected pattern is public only by its base path.
-/

namespace OpenMux.Web

open Py

variable {p ps : Pattern} {path rest base m s w l : Text} {cfg : WebConfig} {routes : RouteConfig} {r : Request}

/-! ## Patterns -/

/-- The first piece is literal, and empty only for the root. -/
def Pattern.rooted : Pattern → Bool
  | .lit l :: ps => !l.contains '/' && (l ≠ [] || ps.isEmpty)
  | _ => false

theorem rooted_of_mem (h : p ∈ registerRoutes routes) : p.rooted = true := by
  have hall : ∀ ui probes editor customizer proxy : Bool,
      (registerRoutes ⟨ui, probes, editor, customizer, proxy⟩).all Pattern.rooted = true := by
    decide
  exact List.all_eq_true.mp (hall _ _ _ _ _) p h

theorem exists_lit (h : p.rooted = true) : ∃ l ps, p = .lit l :: ps ∧ '/' ∉ l ∧ (l = [] → ps = []) := by
  match p, h with
  | .lit l :: ps, h =>
      refine ⟨l, ps, rfl, ?_⟩
      simp only [Pattern.rooted, ne_eq, decide_not, Bool.and_eq_true, Bool.not_eq_true', List.contains_eq_mem,
        decide_eq_false_iff_not, Bool.or_eq_true, List.isEmpty_iff] at h
      exact ⟨h.1, fun hl => h.2.resolve_left (by simp [hl])⟩

theorem fits_head (h : ps.Fits rest) : rest = [] ∧ ps = [] ∨ rest.head? = some '/' := by
  cases ps with
  | nil => exact .inl ⟨h, rfl⟩
  | cons piece ps =>
      right
      cases piece with
      | lit l =>
          obtain ⟨rest', rfl, -⟩ := h
          rfl
      | name =>
          obtain ⟨v, rest', -, rfl, -⟩ := h
          rfl
      | tail => exact h

theorem firstSegment_cons {t : Text} : firstSegment ('/' :: t) = t.takeWhile (· ≠ '/') := rfl

theorem takeWhile_sep {t u : Text} : (t ++ '/' :: u).takeWhile (· ≠ '/') = t.takeWhile (· ≠ '/') := by
  induction t with
  | nil => simp
  | cons c t ih =>
      rw [List.cons_append, List.takeWhile_cons, List.takeWhile_cons, ih]

theorem takeWhile_of_not_mem {t : Text} (h : '/' ∉ t) : t.takeWhile (· ≠ '/') = t := by
  rw [List.takeWhile_eq_self_iff]
  intro c hc
  have hne : c ≠ '/' := fun he => h (he ▸ hc)
  simpa using hne

/-- The first segment of a path is the first literal of its pattern. -/
theorem firstSegment_fits (hl : '/' ∉ l) (h : Pattern.Fits (.lit l :: ps) rest) : firstSegment rest = l := by
  obtain ⟨rest', rfl, hfits⟩ := h
  show (l ++ rest').takeWhile (· ≠ '/') = l
  rcases fits_head hfits with ⟨rfl, -⟩ | hhead
  · rw [List.append_nil, takeWhile_of_not_mem hl]
  · obtain ⟨u, rfl⟩ := List.head?_eq_some_iff.mp hhead
    rw [takeWhile_sep, takeWhile_of_not_mem hl]

/-- A path of one segment fits the one pattern with this segment alone. -/
theorem eq_of_fits (hroot : p.rooted = true) (h : p.Fits ('/' :: w)) (hw : '/' ∉ w) : p = [.lit w] := by
  obtain ⟨l, ps, rfl, hl, -⟩ := exists_lit hroot
  have hseg := firstSegment_fits hl h
  rw [firstSegment_cons, takeWhile_of_not_mem hw] at hseg
  subst hseg
  obtain ⟨rest', he, hfits⟩ := h
  have hnil : rest' = [] := by
    simpa using he
  subst hnil
  rcases fits_head hfits with ⟨-, rfl⟩ | hhead
  · rfl
  · cases hhead

/-- A path in a directory has its name as the first segment. -/
theorem firstSegment_of_prefix (hw : '/' ∉ w) (h : '/' :: w ++ ['/'] <+: path) : firstSegment path = w := by
  obtain ⟨u, rfl⟩ := h
  rw [List.append_assoc, List.singleton_append, List.cons_append, firstSegment_cons, takeWhile_sep, takeWhile_of_not_mem hw]

/-- What is below a path has its first segment. -/
theorem firstSegment_append (hm : m.head? = some '/') (hrest : rest.head? = some '/') :
    firstSegment (m ++ rest) = firstSegment m := by
  obtain ⟨m', rfl⟩ := List.head?_eq_some_iff.mp hm
  obtain ⟨r', rfl⟩ := List.head?_eq_some_iff.mp hrest
  rw [List.cons_append, firstSegment_cons, takeWhile_sep, firstSegment_cons]

theorem dir_prefix (hm : m.head? = some '/') (hrest : rest.head? = some '/') (hseg : firstSegment m = w) :
    '/' :: w ++ ['/'] <+: m ++ rest := by
  obtain ⟨m', rfl⟩ := List.head?_eq_some_iff.mp hm
  obtain ⟨r', rfl⟩ := List.head?_eq_some_iff.mp hrest
  subst hseg
  rw [List.cons_append, List.cons_append, List.prefix_cons_inj, firstSegment_cons]
  obtain ⟨a, b, he, ha⟩ := List.eq_append_cons_of_mem (show '/' ∈ m' ++ '/' :: r' by simp)
  rw [← @takeWhile_sep m' r', he, takeWhile_sep, takeWhile_of_not_mem ha]
  exact ⟨b, by simp⟩

/-! ## Public paths of protected patterns -/

theorem underPublic_iff : UnderPublic path base ↔
    (∃ w ∈ ["healthz", "livez", "logout", "favicon.ico", "login", "proxy"], path = base ++ '/' :: w.toList) ∨
      ∃ w ∈ ["static", "proxy"], base ++ ('/' :: w.toList ++ ['/']) <+: path := by
  simp [UnderPublic]

/-- A path of a protected pattern is not public as it stands. -/
theorem not_underPublic_nil (hroot : p.rooted = true) (hpublic : ¬ p.Public) (h : p.Fits rest) : ¬ UnderPublic rest [] := by
  rw [underPublic_iff]
  rintro (⟨w, hw, rfl⟩ | ⟨w, hw, hpre⟩)
  · have hslash : ∀ w ∈ ["healthz", "livez", "logout", "favicon.ico", "login", "proxy"], '/' ∉ w.toList := by
      decide
    have hone : ∀ w ∈ ["healthz", "livez", "logout", "favicon.ico", "login", "proxy"], Pattern.Public [.lit w.toList] := by
      decide
    rw [List.nil_append] at h
    exact hpublic (eq_of_fits hroot h (hslash w hw) ▸ hone w hw)
  · have hslash : ∀ w ∈ ["static", "proxy"], '/' ∉ w.toList := by
      decide
    obtain ⟨l, ps, rfl, hl, -⟩ := exists_lit hroot
    have hfirst : l = w.toList := by
      rw [← firstSegment_fits hl h, firstSegment_of_prefix (hslash w hw) hpre]
    simp only [List.mem_cons, List.not_mem_nil, or_false] at hw
    rcases hw with rfl | rfl
    · exact hpublic (.inr (.inl (by rw [hfirst]; rfl)))
    · exact hpublic (.inr (.inr (by rw [hfirst]; rfl)))

/-- Nor is it below slashes. -/
theorem not_underPublic_slashes (hroot : p.rooted = true) (hpublic : ¬ p.Public) (h : p.Fits rest) (hs : ∀ c ∈ s, c = '/') :
    ¬ UnderPublic rest s := by
  cases s with
  | nil => exact not_underPublic_nil hroot hpublic h
  | cons c s =>
      obtain ⟨l, ps, rfl, hl, hempty⟩ := exists_lit hroot
      have hseg := firstSegment_fits hl h
      -- The first segment of the path is empty, and there is another one.
      have hslash {t : Text} (ht : c :: s ++ '/' :: t <+: rest) : False := by
        obtain ⟨u, rfl⟩ := ht
        have hnil : l = [] := by
          rw [← hseg, List.cons_append, List.cons_append, hs c List.mem_cons_self, firstSegment_cons]
          cases s with
          | nil => simp
          | cons d s => simp [hs d (by simp)]
        obtain ⟨rest', he, hfits⟩ := h
        rw [hempty hnil] at hfits
        rw [hnil, hfits] at he
        simp at he
      rw [underPublic_iff]
      rintro (⟨w, hw, rfl⟩ | ⟨w, hw, hpre⟩)
      · exact hslash List.prefix_rfl
      · exact hslash (t := w.toList ++ ['/']) (by simpa using hpre)

theorem fits_slash (hroot : p.rooted = true) (h : p.Fits rest) : rest.head? = some '/' := by
  obtain ⟨l, ps, rfl, -, -⟩ := exists_lit hroot
  exact (fits_head h).resolve_left fun hnil => by cases hnil.2

/-- Below a mount it is public as it stands if the mount is below a public directory. -/
theorem underPublic_mount (hroot : p.rooted = true) (hpublic : ¬ p.Public) (h : p.Fits rest)
    (hm : m = [] ∨ m.head? = some '/') :
    UnderPublic (m ++ rest) [] ↔ firstSegment m = "static".toList ∨ firstSegment m = "proxy".toList := by
  rcases hm with rfl | hm
  · exact iff_of_false (not_underPublic_nil hroot hpublic h) (by decide)
  · have hrest := fits_slash hroot h
    rw [underPublic_iff]
    constructor
    · rintro (⟨w, hw, he⟩ | ⟨w, hw, hpre⟩)
      · have hslash : ∀ w ∈ ["healthz", "livez", "logout", "favicon.ico", "login", "proxy"], '/' ∉ w.toList := by
          decide
        obtain ⟨m', rfl⟩ := List.head?_eq_some_iff.mp hm
        obtain ⟨r', rfl⟩ := List.head?_eq_some_iff.mp hrest
        rw [List.nil_append, List.cons_append, List.cons.injEq] at he
        exact absurd (he.2 ▸ by simp) (hslash w hw)
      · have hslash : ∀ w ∈ ["static", "proxy"], '/' ∉ w.toList := by
          decide
        have hseg := firstSegment_of_prefix (hslash w hw) hpre
        rw [firstSegment_append hm hrest] at hseg
        simp only [List.mem_cons, List.not_mem_nil, or_false] at hw
        rcases hw with rfl | rfl
        · exact .inl hseg
        · exact .inr hseg
    · rintro (hseg | hseg)
      · exact .inr ⟨"static", by simp, dir_prefix hm hrest hseg⟩
      · exact .inr ⟨"proxy", by simp, dir_prefix hm hrest hseg⟩

/-- Only the slashes at its end tell the configured base path from the mount. -/
theorem exists_slashes : ∃ s, normalizeBasePath cfg.basePath = mountPrefix cfg ++ s ∧ ∀ c ∈ s, c = '/' := by
  refine ⟨(normalizeBasePath cfg.basePath).rtakeWhile (· = '/'), List.rdropWhile_append_rtakeWhile.symm, fun c hc => ?_⟩
  simpa using List.mem_rtakeWhile_imp hc

theorem head_normalizeBasePath (value : Text) : normalizeBasePath value = [] ∨ (normalizeBasePath value).head? = some '/' := by
  unfold normalizeBasePath
  split
  · exact .inl rfl
  · dsimp only
    split
    · exact .inl rfl
    · right
      have hhead : (if (strip value).head? = some '/' then strip value else '/' :: strip value).head? = some '/' := by
        split
        · assumption
        · rfl
      generalize (if (strip value).head? = some '/' then strip value else '/' :: strip value) = v at hhead ⊢
      split
      · rename_i hlong
        obtain ⟨t, rfl⟩ := List.head?_eq_some_iff.mp hhead
        cases t with
        | nil => exact absurd rfl hlong.1
        | cons c t => rfl
      · exact hhead

theorem head_mountPrefix : mountPrefix cfg = [] ∨ (mountPrefix cfg).head? = some '/' := by
  obtain ⟨s, hs, -⟩ := @exists_slashes cfg
  cases hm : mountPrefix cfg with
  | nil => exact .inl rfl
  | cons c t =>
      right
      have hhead := head_normalizeBasePath cfg.basePath
      rw [hs, hm] at hhead
      simpa using hhead

theorem public_or_proxy : isPublicPath path base = true ∨ isProxyPath path base = true ↔
    UnderPublic path [] ∨ base ≠ [] ∧ UnderPublic path base := by
  by_cases hb : base = []
  · subst hb
    simp only [isPublicPath, isProxyPath, prefixedPath, UnderPublic]
    simp
    tauto
  · simp only [isPublicPath, isProxyPath, prefixedPath, UnderPublic, if_neg hb]
    simp [hb]
    tauto

/-- A request for a protected route is public exactly if it is not guarded. -/
theorem public_or_proxy_iff (hmem : p ∈ registerRoutes routes) (hpublic : ¬ p.Public)
    (hpath : r.path = mountPrefix cfg ++ rest) (h : p.Fits rest) :
    isPublicPath r.path (effectiveBasePath cfg r) = true ∨ isProxyPath r.path (effectiveBasePath cfg r) = true ↔
      ¬ Guarded cfg r := by
  have hroot := rooted_of_mem hmem
  obtain ⟨s, hs, hslashes⟩ := @exists_slashes cfg
  rw [public_or_proxy, hpath, underPublic_mount hroot hpublic h head_mountPrefix]
  unfold Guarded
  by_cases hbase : normalizeBasePath cfg.basePath = []
  · have hmount : mountPrefix cfg = [] := by
      rw [hbase] at hs
      exact (List.append_eq_nil_iff.mp hs.symm).1
    rw [if_neg (not_not.mpr hbase), hpath, hmount, List.nil_append]
    simp [firstSegment]
  · have heff : effectiveBasePath cfg r = mountPrefix cfg ++ s := by
      rw [effectiveBasePath, if_pos hbase, hs]
    have hbelow : ¬ UnderPublic (mountPrefix cfg ++ rest) (mountPrefix cfg ++ s) := by
      have hno := not_underPublic_slashes hroot hpublic h hslashes
      simpa only [UnderPublic, List.append_assoc, List.append_cancel_left_eq, List.prefix_append_right_inj] using hno
    rw [if_pos hbase, heff, or_iff_left fun h => hbelow h.2]
    tauto

/-! ## The middleware -/

variable {creds : Credentials} {sessions : Dict Text Session} {now : ℚ}

theorem attached_iff : (attachSessionUser cfg sessions now r).1 = none ↔ liveSession cfg sessions now r = none := by
  unfold attachSessionUser liveSession
  cases (r.cookies.get? cfg.sessionCookieName).filter (· ≠ []) with
  | none => simp
  | some sid =>
      cases hsid : sessions.get? sid with
      | none => simp [hsid]
      | some sess =>
          simp only [Option.bind_some, hsid, Option.filter_some]
          by_cases hold : cfg.sessionTtlSeconds < now - sess.lastSeen.getD now
          · simp [hold, not_le.mpr hold]
          · simp [hold, not_lt.mp hold]

/-- The handler runs without a username exactly if the path is public and no session is attached. -/
theorem handler_none_iff : (authMiddleware cfg creds sessions now r).1 = .handler none ↔
    (isPublicPath r.path (effectiveBasePath cfg r) = true ∨ isProxyPath r.path (effectiveBasePath cfg r) = true) ∧
      liveSession cfg sessions now r = none := by
  rw [← attached_iff]
  unfold authMiddleware
  dsimp only
  by_cases hpublic : isPublicPath r.path (effectiveBasePath cfg r) = true
  · simp [hpublic]
  · by_cases hproxy : isProxyPath r.path (effectiveBasePath cfg r) = true
    · simp [hpublic, hproxy]
    · rw [if_neg hpublic, if_neg hproxy]
      refine iff_of_false ?_ fun h => h.1.elim hpublic hproxy
      -- Every other way to the handler brings a username.
      cases authViaSso creds r with
      | some username => simp
      | none =>
          cases basicAuthResult creds r with
          | some result => cases result <;> simp
          | none =>
              obtain ⟨username, sessions'⟩ := attachSessionUser cfg sessions now r
              cases username with
              | some username => simp
              | none =>
                  dsimp only
                  split <;> simp

end OpenMux.Web
