import OpenMux.ConfigEditor.Lemmas.Parsing

/-! The policy that the editor reads is the one that the parser returns. -/

namespace OpenMux.ConfigEditor.Parsing

open Py

variable {p : Printer} {α β : Type}

/-- A result is the same in both, and what one refuses the other does. -/
def Agrees : Except Raised α → Option α → Prop
  | .ok a, o => o = some a
  | .error (.policy _), o => o = none
  | .error .other, _ => True

theorem agrees_bind {x : Except Raised α} {o : Option α} {f : α → Except Raised β} {g : α → Option β} (hx : Agrees x o)
    (hf : ∀ a, Agrees (f a) (g a)) : Agrees (x >>= f) (o >>= g) := by
  cases x with
  | ok a =>
      cases hx
      exact hf a
  | error e =>
      cases e with
      | policy e =>
          cases hx
          rfl
      | other => trivial

/-- The text of a value that is no text is neither a star nor a known name. -/
def Printer.Plain (p : Printer) : Prop := ∀ v t, p.str v = some t → (∀ s, v ≠ .str s) →
  ∀ b ∈ [adapters, configEditor], b.normalize t ≠ ['*'] ∧ b.normalize t ∉ b.known

/-! ## The parts of the parser -/

theorem knownKeys_eq (known : List Text) (error : List Text → PolicyError) (m : Mapping) :
    Agrees (do checkKeys known error m; .ok m) (knownKeys known (.dict m)) := by
  have hiff : (m.all fun e => known.any fun t => .str t = e.1) = true ↔ KnownKeys known m := by
    simp only [List.all_eq_true, List.any_eq_true, decide_eq_true_eq]
    exact forall₂_congr fun e _ => exists_congr fun t => and_congr_right fun _ => eq_comm
  unfold checkKeys knownKeys
  dsimp only
  split
  case isTrue hnil => exact if_pos (hiff.mpr (unknown_eq_nil.mp hnil))
  case isFalse hne =>
    split
    case isTrue => exact if_neg (mt hiff.mp (mt unknown_eq_nil.mpr hne))
    case isFalse => trivial

/-- What follows the check of the keys. -/
theorem agrees_keys {known : List Text} {error : List Text → PolicyError} {m : Mapping} {x : Except Raised β}
    {g : Mapping → Option β} (hx : Agrees x (g m)) :
    Agrees (do checkKeys known error m; x) (knownKeys known (.dict m) >>= g) := by
  have hm := knownKeys_eq known error m
  cases hk : checkKeys known error m with
  | ok u =>
      rw [hk] at hm
      rw [show knownKeys known (.dict m) = some m from hm]
      exact hx
  | error e =>
      cases e with
      | policy e =>
          rw [hk] at hm
          rw [show knownKeys known (.dict m) = none from hm]
          rfl
      | other => trivial

theorem validatedBlock_agrees (data : Mapping) (name : Text) (keys : List Text) :
    Agrees (validatedBlock data name keys) (ConfigEditor.validatedBlock data name keys) := by
  unfold validatedBlock ConfigEditor.validatedBlock
  split
  case h_1 m hm =>
    rw [hm]
    exact knownKeys_eq _ _ _
  case h_2 hm =>
    cases h : (Mapping.get name data).orElse (.dict []) with
    | dict m => exact absurd h (hm m)
    | _ => rfl

/-- The canonical name of a value is that of its text. -/
def Canonical (p : Printer) (b : Block) (normalize : Tree → Option Text) : Prop := ∀ v t, p.str v = some t →
  ∀ name, (name = ['*'] ∨ name ∈ b.known) → (normalize v = some name ↔ b.normalize t = name)

theorem canonicalSectionName_none {v : Tree} (h : ∀ s, v ≠ .str s) : canonicalSectionName v = none := by
  cases v with
  | str s => exact absurd rfl (h s)
  | _ => rfl

theorem canonical {b : Block} (hb : b ∈ [adapters, configEditor]) (h : p.Plain) {normalize : Tree → Option Text}
    (hstr : ∀ s, normalize (.str s) = some (b.normalize s)) (hother : ∀ v, (∀ s, v ≠ .str s) → normalize v = none) :
    Canonical p b normalize := by
  intro v t hv name hname
  by_cases hs : ∃ s, v = .str s
  · obtain ⟨s, rfl⟩ := hs
    obtain rfl : s = t := Option.some.inj hv
    rw [hstr, Option.some.injEq]
  · have hplain := h v t hv (not_exists.mp hs) b hb
    rw [hother v (not_exists.mp hs)]
    apply iff_of_false (by simp)
    intro hn
    rw [← hn] at hname
    exact hname.elim hplain.1 hplain.2

theorem canonical_section (h : p.Plain) : Canonical p configEditor canonicalSectionName :=
  canonical (by simp) h (fun _ => rfl) fun _ => canonicalSectionName_none

theorem canonical_adapter (h : p.Plain) : Canonical p adapters canonicalAdapterType :=
  canonical (by simp) h (fun _ => rfl) fun _ hv => by rw [canonicalAdapterType, canonicalSectionName_none hv]; rfl

theorem filter_canonical {b : Block} {normalize : Tree → Option Text} (h : Canonical p b normalize) {v : Tree} {t : Text}
    (hv : p.str v = some t) : (normalize v).filter (b.known.contains ·) =
      if b.known.contains (b.normalize t) then some (b.normalize t) else none := by
  split
  case isTrue hk =>
    rw [(h v t hv _ (.inr (by simpa using hk))).mpr rfl, Option.filter_some, if_pos hk]
  case isFalse hk =>
    rw [Option.filter_eq_none_iff]
    intro name hn hknown
    have hname : name ∈ b.known := by simpa using hknown
    rw [(h v t hv name (.inr hname)).mp hn] at hk
    exact hk hknown

/-- The list with all of its names known. -/
theorem mapM_canonical {b : Block} {normalize : Tree → Option Text} (h : Canonical p b normalize) {xs : List Tree} {ts : List Text}
    (hall : List.Forall₂ (fun x t => p.str x = some t) xs ts) : (xs.mapM fun v => (normalize v).filter (b.known.contains ·)) =
      if (ts.map b.normalize).all (b.known.contains ·) then some (ts.map b.normalize) else none := by
  induction hall with
  | nil => rfl
  | @cons x t xs ts hx _ ih =>
      rw [List.mapM_cons, ih, filter_canonical h hx, List.map_cons, List.all_cons]
      by_cases hk : b.known.contains (b.normalize t)
      · rw [if_pos hk, hk, Bool.true_and]
        split <;> rfl
      · rw [if_neg hk, eq_false_of_ne_true hk, Bool.false_and]
        rfl

theorem resolveOne_agrees {b : Block} {normalize : Tree → Option Text} (h : Canonical p b normalize) (cfg : Mapping) (key : Text)
    (default : List Tree) : Agrees (resolveOne p b cfg key default) (ConfigEditor.resolveOne cfg key default b.known normalize) := by
  unfold resolveOne ConfigEditor.resolveOne
  generalize (Mapping.find key cfg).getD (.list default) = v
  cases v with
  | none => rfl
  | list raw =>
      dsimp only
      rcases mapM_str p raw with ⟨hnone, -⟩ | ⟨ts, hts, hall⟩
      · simp only [hnone]
        trivial
      · simp only [hts]
        have hstar : (raw.any fun v => normalize v = some ['*']) = true ↔ ['*'] ∈ ts.map b.normalize := by
          clear hts
          induction hall with
          | nil => simp
          | cons hx _ ih =>
              have hx := h _ _ hx ['*'] (.inl rfl)
              simp only [List.any_cons, Bool.or_eq_true, decide_eq_true_eq, ih, List.map_cons, List.mem_cons, hx]
              exact or_congr_left eq_comm
        simp only [hstar, mapM_canonical h hall]
        split
        · rfl
        · split <;> rfl
  | _ => rfl

theorem resolveAllowDenyList_agrees {b : Block} {normalize : Tree → Option Text} (h : Canonical p b normalize) (cfg : Mapping) :
    Agrees (resolveAllowDenyList p b cfg) (ConfigEditor.resolveAllowDenyList cfg b.known normalize) :=
  agrees_bind (resolveOne_agrees h cfg _ _) fun _ => agrees_bind (resolveOne_agrees h cfg _ _) fun _ => rfl

/-! ## The limits -/

def Limit.get (r : RateLimits) : Limit → Int
  | windowSeconds => r.windowSeconds
  | failureThreshold => r.failureThreshold
  | baseLockSeconds => r.baseLockSeconds

/-- One turn of the loop over the limits. -/
def readLimit (cfg : Mapping) (o : Option RateLimits) (l : Limit) : Option RateLimits :=
  o.bind fun r => (ConfigEditor.parseLimit cfg l.key (l.get r)).map fun n => setLimit r n l

/-- The default of a limit that is there does not matter. -/
theorem parseLimit_default {cfg : Mapping} {key : Text} {v : Tree} (hv : Mapping.find key cfg = some v) (d d' : Int) :
    ConfigEditor.parseLimit cfg key d = ConfigEditor.parseLimit cfg key d' := by
  unfold ConfigEditor.parseLimit
  rw [hv]
  cases v with
  | float x => cases x <;> rfl
  | _ => rfl

theorem readLimit_absent {cfg : Mapping} {l : Limit} (hv : Mapping.find l.key cfg = none) (r : RateLimits) :
    readLimit cfg (some r) l = some r := by
  cases l <;> simp [readLimit, ConfigEditor.parseLimit, hv, setLimit, Limit.get]

/-- A limit that is absent changes nothing, and any other does not look at the limits so far. -/
theorem readLimit_cases (cfg : Mapping) (l : Limit) : (∀ r, readLimit cfg (some r) l = some r) ∨
    ∃ o : Option Int, ∀ r, readLimit cfg (some r) l = o.map fun n => setLimit r n l := by
  cases hv : Mapping.find l.key cfg with
  | none => exact .inl (readLimit_absent hv)
  | some v =>
      right
      exact ⟨ConfigEditor.parseLimit cfg l.key 0, fun r => by rw [readLimit, Option.bind_some, parseLimit_default hv]⟩

theorem setLimit_comm (r : RateLimits) (n n' : Int) {l l' : Limit} (h : l ≠ l') :
    setLimit (setLimit r n l) n' l' = setLimit (setLimit r n' l') n l := by
  cases l <;> cases l' <;> first | exact absurd rfl h | rfl

theorem readLimit_comm (cfg : Mapping) (o : Option RateLimits) (l l' : Limit) :
    readLimit cfg (readLimit cfg o l) l' = readLimit cfg (readLimit cfg o l') l := by
  by_cases hne : l = l'
  · rw [hne]
  cases o with
  | none => rfl
  | some r =>
      rcases readLimit_cases cfg l with h | ⟨x, h⟩
      · rw [h]
        rcases readLimit_cases cfg l' with h' | ⟨y, h'⟩
        · rw [h', h]
        · rw [h']
          cases y with
          | none => rfl
          | some n => exact (h _).symm
      · rcases readLimit_cases cfg l' with h' | ⟨y, h'⟩
        · rw [h', h]
          cases x with
          | none => rfl
          | some n => exact h' _
        · rw [h, h']
          cases x <;> cases y <;> simp only [Option.map_none, Option.map_some, h, h', setLimit_comm r _ _ hne] <;> rfl

theorem foldl_none (cfg : Mapping) (ls : List Limit) : ls.foldl (readLimit cfg) none = none := by
  induction ls with
  | nil => rfl
  | cons l ls ih => exact ih

theorem parseLimit_agrees {cfg : Mapping} {l : Limit} {v : Tree} (hv : Mapping.find l.key cfg = some v) (d : Int) :
    Agrees (parseLimit l v) (ConfigEditor.parseLimit cfg l.key d) := by
  cases v with
  | float x => cases x <;> simp [ConfigEditor.parseLimit, hv, parseLimit, Agrees]
  | _ => simp [ConfigEditor.parseLimit, hv, parseLimit, Agrees]

theorem parseLimits_agrees (cfg : Mapping) (ls : List Limit) (r : RateLimits) :
    Agrees (parseLimits cfg ls r) (ls.foldl (readLimit cfg) (some r)) := by
  induction ls generalizing r with
  | nil => rfl
  | cons l ls ih =>
      rw [parseLimits, List.foldl_cons]
      cases hv : Mapping.find l.key cfg with
      | none =>
          rw [readLimit_absent hv]
          exact ih r
      | some v =>
          have ha := parseLimit_agrees hv (l.get r)
          dsimp only
          cases hp : parseLimit l v with
          | ok n =>
              rw [hp] at ha
              simp only [readLimit, Option.bind_some, show ConfigEditor.parseLimit cfg l.key (l.get r) = some n from ha]
              exact ih _
          | error e =>
              rw [hp] at ha
              cases e with
              | policy e =>
                  simp only [readLimit, Option.bind_some, show ConfigEditor.parseLimit cfg l.key (l.get r) = none from ha]
                  exact foldl_none cfg ls
              | other => trivial

/-- The loop in the order of the fields. -/
theorem foldl_readLimit (cfg : Mapping) : [Limit.windowSeconds, .failureThreshold, .baseLockSeconds].foldl (readLimit cfg) (some {}) =
    (ConfigEditor.parseLimit cfg Limit.windowSeconds.key 300).bind fun w =>
      (ConfigEditor.parseLimit cfg Limit.failureThreshold.key 5).bind fun f =>
        (ConfigEditor.parseLimit cfg Limit.baseLockSeconds.key 30).bind fun b => some ⟨w, f, b⟩ := by
  simp only [List.foldl_cons, List.foldl_nil, readLimit, Option.bind_some, Limit.get]
  cases ConfigEditor.parseLimit cfg Limit.windowSeconds.key 300 with
  | none => rfl
  | some w =>
      simp only [Option.map_some, Option.bind_some, setLimit]
      cases ConfigEditor.parseLimit cfg Limit.failureThreshold.key 5 with
      | none => rfl
      | some f =>
          simp only [Option.map_some, Option.bind_some]
          cases ConfigEditor.parseLimit cfg Limit.baseLockSeconds.key 30 <;> rfl

theorem parseAuthRateLimits_agrees (order : LimitOrder) (rateLimits : Mapping) :
    Agrees (parseAuthRateLimits order rateLimits) (ConfigEditor.parseAuthRateLimits rateLimits) := by
  apply agrees_bind (validatedBlock_agrees _ _ _)
  intro cfg
  have h := parseLimits_agrees cfg order.limits {}
  rw [order.perm.foldl_eq' (fun l _ l' _ o => readLimit_comm cfg o l l'), foldl_readLimit] at h
  exact h

theorem parseAccessDefault_agrees (v : Tree) : Agrees (parseAccessDefault v) (ConfigEditor.parseAccessDefault v) := by
  unfold parseAccessDefault
  cases ConfigEditor.parseAccessDefault v <;> rfl

/-- The two parsers agree, but for an exception that is no refusal. -/
theorem fromMapping_agrees (h : p.Plain) (order : LimitOrder) (raw : Tree) :
    Agrees (fromMapping p order raw) (SecurityPolicy.fromMapping raw) := by
  unfold fromMapping SecurityPolicy.fromMapping
  split
  case h_2 hraw =>
    cases hr : raw.orElse (.dict []) with
    | dict m => exact absurd hr (hraw m)
    | _ => rfl
  case h_1 data hdata =>
    rw [hdata]
    obtain rfl := orElse_dict hdata
    apply agrees_keys
    apply agrees_bind (validatedBlock_agrees _ _ _)
    intro adaptersCfg
    apply agrees_bind (resolveAllowDenyList_agrees (canonical_adapter h) _)
    intro allowed
    apply agrees_bind (validatedBlock_agrees _ _ _)
    intro configEditorCfg
    apply agrees_bind (resolveAllowDenyList_agrees (canonical_section h) _)
    intro sections
    apply agrees_bind (validatedBlock_agrees _ _ _)
    intro rateLimits
    apply agrees_bind (parseAuthRateLimits_agrees order _)
    intro limits
    exact agrees_bind (parseAccessDefault_agrees _) fun _ => rfl

end OpenMux.ConfigEditor.Parsing
