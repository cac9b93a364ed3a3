import OpenMux.ConfigEditor.Parsing

/-! The parser refuses or raises at the first part that it does not pass. -/

namespace OpenMux.ConfigEditor.Parsing

open Py

variable {p : Printer} {α β : Type}

/-- The parser goes on. -/
def Part.Passed (p : Printer) (part : Part) : Prop := ¬ part.Refused p ∧ ¬ part.Crashes p

def Part.Stops (p : Printer) (part : Part) : Raised → Prop
  | .policy _ => part.Refused p
  | .other => part.Crashes p

/-- The outcome of a function that looks at these parts. -/
def Follows (p : Printer) : Except Raised α → List Part → Prop
  | .ok _, ps => ∀ part ∈ ps, part.Passed p
  | .error e, ps => ∃ before part after, ps = before ++ part :: after ∧ part.Stops p e ∧ ∀ q ∈ before, q.Passed p

theorem follows_stop {e : Raised} {part : Part} {ps : List Part} (h : part.Stops p e) :
    Follows p (.error e : Except Raised α) (part :: ps) := ⟨[], part, ps, rfl, h, by simp⟩

theorem follows_pass {a : α} {part : Part} (hr : ¬ part.Refused p) (hc : ¬ part.Crashes p) :
    Follows p (.ok a) [part] := by
  simpa [Follows, Part.Passed] using And.intro hr hc

/-- What comes after a part that is passed. -/
theorem follows_cons {x : Except Raised α} {part : Part} {ps : List Part} (h : part.Passed p) (hx : Follows p x ps) :
    Follows p x (part :: ps) := by
  cases x with
  | ok a => simpa [Follows] using And.intro h hx
  | error e =>
      obtain ⟨before, q, after, rfl, hq, hb⟩ := hx
      exact ⟨part :: before, q, after, rfl, hq, by simpa using And.intro h hb⟩

theorem follows_append {x : Except Raised α} {ps qs : List Part} (h : ∀ part ∈ ps, part.Passed p) (hx : Follows p x qs) :
    Follows p x (ps ++ qs) := by
  induction ps with
  | nil => exact hx
  | cons part ps ih =>
      rw [List.forall_mem_cons] at h
      exact follows_cons h.1 (ih h.2)

/-- One function after another. -/
theorem follows_bind {x : Except Raised α} {f : α → Except Raised β} {u v : List Part} (hx : Follows p x u)
    (hf : ∀ a, x = .ok a → Follows p (f a) v) : Follows p (x >>= f) (u ++ v) := by
  cases x with
  | ok a => exact follows_append hx (hf a rfl)
  | error e =>
      obtain ⟨before, q, after, rfl, hq, hb⟩ := hx
      exact ⟨before, q, after ++ v, by simp, hq, hb⟩

theorem bind_ok {x : Except Raised α} {f : α → Except Raised β} {b : β} (h : x >>= f = .ok b) :
    ∃ a, x = .ok a ∧ f a = .ok b := by
  cases x with
  | ok a => exact ⟨a, rfl, h⟩
  | error e => cases h

theorem Part.not_crashes {part : Part} (h : part.Refused p) : ¬ part.Crashes p := by
  cases part with
  | keys known m =>
      rintro ⟨e, he, n, hn⟩
      obtain ⟨t, ht⟩ := h.2 e he
      rw [ht] at hn
      cases hn
  | names b v =>
      rintro ⟨x, hx, hnone⟩
      rcases h with ⟨-, hlist⟩ | ⟨hstr, -⟩
      · cases v with
        | list xs => exact hlist xs rfl
        | _ => cases hx
      · exact hstr x hx hnone
  | limit v =>
      rintro ⟨x, hv, -⟩
      obtain ⟨y, hy, -, hfloat⟩ := h
      cases hv.symm.trans hy
      exact hfloat x rfl
  | _ => exact id

/-- The exception is documented, and a result lets nothing slip through. -/
def Documented (p : Printer) (ps : List Part) : Except Raised α → Prop
  | .ok _ => ∀ part ∈ ps, ¬ part.Slips p
  | .error (.policy _) => True
  | .error .other => False

theorem careful_iff {x : Except Raised α} {ps : List Part} (h : Follows p x ps) : Careful p ps ↔ Documented p ps x := by
  match x, h with
  | .ok a, h =>
      constructor
      · rintro (⟨before, part, after, rfl, hr, -⟩ | hfine)
        · exact absurd hr (h part (by simp)).1
        · exact fun part hp => (hfine part hp).2
      · exact fun hs => .inr fun part hp => ⟨(h part hp).2, hs part hp⟩
  | .error (.policy e), ⟨before, part, after, heq, hr, hb⟩ =>
      exact iff_of_true (.inl ⟨before, part, after, heq, hr, fun q hq => (hb q hq).2⟩) trivial
  | .error .other, ⟨before, part, after, heq, hc, hb⟩ =>
      apply iff_of_false _ id
      rintro (⟨before', q, after', heq', hr, hb'⟩ | hfine)
      · rcases List.append_eq_append_iff.mp (heq.symm.trans heq') with ⟨m, rfl, hm⟩ | ⟨m, rfl, hm⟩
        · cases m with
          | nil =>
              cases hm
              exact Part.not_crashes hr hc
          | cons r m =>
              cases hm
              exact hb' part (by simp) hc
        · cases m with
          | nil =>
              cases hm
              exact Part.not_crashes hr hc
          | cons r m =>
              cases hm
              exact (hb q (by simp)).1 hr
      · exact (hfine part (by simp [heq])).1 hc

/-! ## Blocks -/

theorem unknown_eq_nil {known : List Text} {m : Mapping} :
    ((m.map (·.1)).filter fun k => !known.any fun t => .str t = k) = [] ↔ KnownKeys known m := by
  rw [List.filter_eq_nil_iff, List.forall_mem_map]
  apply forall₂_congr
  intro e _
  simp only [Bool.not_eq_true', Bool.not_eq_false, List.any_eq_true, decide_eq_true_eq]
  exact exists_congr fun t => and_congr_right fun _ => eq_comm

theorem checkKeys_follows (known : List Text) (error : List Text → PolicyError) (m : Mapping) :
    Follows p (checkKeys known error m) [.keys known m] := by
  unfold checkKeys
  dsimp only
  split
  case isTrue hnil =>
    have hknown := unknown_eq_nil.mp hnil
    apply follows_pass
    · exact fun h => h.1 hknown
    · rintro ⟨e, he, n, hn⟩
      obtain ⟨t, -, ht⟩ := hknown e he
      cases hn.symm.trans ht
  case isFalse hne =>
    have hknown := mt unknown_eq_nil.mpr hne
    split
    case isTrue hall =>
      apply follows_stop
      constructor
      · exact hknown
      · rintro ⟨k, v⟩ he
        cases k with
        | str t => exact ⟨t, rfl⟩
        | other n =>
            have hn := List.all_eq_true.mp hall (.other n) (by simpa using ⟨v, he⟩)
            simp [textKeys] at hn
    case isFalse hall =>
      apply follows_stop
      simp only [List.all_eq_true, not_forall] at hall
      obtain ⟨k, hk, hn⟩ := hall
      obtain ⟨⟨⟨k', v⟩, he, rfl⟩, -⟩ := by simpa only [List.mem_filter, List.mem_map] using hk
      cases k' with
      | str t => simp [textKeys] at hn
      | other n => exact ⟨_, he, n, rfl⟩

theorem entries_of_falsy {v : Tree} (h : v.truthy = false) : v.entries = [] := by
  cases v with
  | dict m =>
      cases m with
      | nil => rfl
      | cons e m => simp [Tree.truthy] at h
  | _ => rfl

theorem orElse_dict {v : Tree} {m : Mapping} (h : v.orElse (.dict []) = .dict m) : m = v.entries := by
  unfold Tree.orElse at h
  split at h
  case isTrue =>
    rw [h]
    rfl
  case isFalse hfalse =>
    cases h
    exact (entries_of_falsy (eq_false_of_ne_true hfalse)).symm

theorem orElse_other {v : Tree} (h : ∀ m, v.orElse (.dict []) ≠ .dict m) : v.truthy = true ∧ ∀ m, v ≠ .dict m := by
  unfold Tree.orElse at h
  by_cases ht : v.truthy
  · simpa [ht] using h
  · simp [ht] at h

/-- The keys are those of the mapping, and an empty value has none. -/
theorem validatedBlock_follows (data : Mapping) (name : Text) (keys : List Text) :
    Follows p (validatedBlock data name keys) (blockParts data name keys) := by
  unfold validatedBlock blockParts under
  split
  case h_1 m hm =>
    have hpass : (Part.block (Mapping.get name data)).Passed p := by
      refine ⟨fun ⟨ht, hd⟩ => ?_, id⟩
      rw [Tree.orElse, if_pos ht] at hm
      exact hd m hm
    apply follows_cons hpass
    rw [← orElse_dict hm]
    exact follows_bind (v := []) (checkKeys_follows keys (.unknownKeys name) m) fun _ _ => by simp [Follows]
  case h_2 hm =>
    apply follows_stop
    exact orElse_other hm

theorem validatedBlock_ok {data cfg : Mapping} {name : Text} {keys : List Text} (h : validatedBlock data name keys = .ok cfg) :
    cfg = under name data := by
  unfold validatedBlock at h
  split at h
  case h_1 m hm =>
    obtain ⟨_, -, hok⟩ := bind_ok h
    cases hok
    exact orElse_dict hm
  case h_2 => cases h

/-! ## Lists of names -/

/-- The texts of the entries of a list. -/
theorem mapM_str (p : Printer) (xs : List Tree) : (xs.mapM p.str = none ∧ ∃ x ∈ xs, p.str x = none) ∨
    ∃ ts, xs.mapM p.str = some ts ∧ List.Forall₂ (fun x t => p.str x = some t) xs ts := by
  induction xs with
  | nil => exact .inr ⟨[], rfl, .nil⟩
  | cons x xs ih =>
      rw [List.mapM_cons]
      cases hx : p.str x with
      | none => exact .inl ⟨rfl, x, by simp, hx⟩
      | some t =>
          rcases ih with ⟨hnone, y, hy, hn⟩ | ⟨ts, hts, hall⟩
          · exact .inl ⟨by simp [hnone], y, by simp [hy], hn⟩
          · exact .inr ⟨t :: ts, by simp [hts], .cons hx hall⟩

variable {b : Block} {xs : List Tree} {ts : List Text}

theorem mem_normalized (h : List.Forall₂ (fun x t => p.str x = some t) xs ts) {name : Text} :
    name ∈ ts.map b.normalize ↔ ∃ x ∈ xs, NameOf p b x name := by
  induction h with
  | nil => simp
  | cons hx _ ih => simp [ih, NameOf, hx, eq_comm]

/-- Where no entry is a star, the list is well formed when all its names are known. -/
theorem listOk_iff (h : List.Forall₂ (fun x t => p.str x = some t) xs ts) :
    ListOk p b xs ↔ ∀ name ∈ ts.map b.normalize, name = ['*'] ∨ name ∈ b.known := by
  induction h with
  | nil => simp [ListOk]
  | cons hx _ ih =>
      rw [ListOk, List.forall_mem_cons, List.map_cons, List.forall_mem_cons, ← ih]
      simp [NameOf, hx, ListOk]

theorem str_ne_none (h : List.Forall₂ (fun x t => p.str x = some t) xs ts) : ∀ x ∈ xs, p.str x ≠ none := by
  induction h with
  | nil => simp
  | cons hx _ ih => exact List.forall_mem_cons.mpr ⟨by simp [hx], ih⟩

theorem resolveOne_follows (b : Block) (cfg : Mapping) (key : Text) (default : List Tree) :
    Follows p (resolveOne p b cfg key default) [.names b ((Mapping.find key cfg).getD (.list default))] := by
  unfold resolveOne
  generalize (Mapping.find key cfg).getD (.list default) = v
  split
  case h_1 => apply follows_pass <;> simp [Part.Refused, Part.Crashes, Tree.rows, ListOk]
  case h_2 raw =>
    rcases mapM_str p raw with ⟨hnone, hx⟩ | ⟨ts, hts, hall⟩
    · simp only [hnone]
      exact follows_stop hx
    · simp only [hts]
      have hcrash : ¬ (Part.names b (.list raw)).Crashes p := by
        rintro ⟨x, hx, hn⟩
        exact str_ne_none hall x hx hn
      split
      case isTrue hstar =>
        apply follows_pass _ hcrash
        rintro (⟨-, hne⟩ | ⟨-, hno, -⟩)
        · exact hne raw rfl
        · obtain ⟨x, hx, hn⟩ := (mem_normalized hall).mp hstar
          exact hno x hx hn
      case isFalse hstar =>
        have hno : ∀ x ∈ raw, ¬ NameOf p b x ['*'] := fun x hx hn => hstar ((mem_normalized hall).mpr ⟨x, hx, hn⟩)
        split
        case isTrue hknown =>
          apply follows_pass _ hcrash
          rintro (⟨-, hne⟩ | ⟨-, -, hbad⟩)
          · exact hne raw rfl
          · apply hbad
            rw [Tree.rows, listOk_iff hall]
            exact fun name hname => .inr (by simpa using List.all_eq_true.mp hknown name hname)
        case isFalse hknown =>
          apply follows_stop
          refine .inr ⟨str_ne_none hall, hno, fun hok => hknown ?_⟩
          rw [List.all_eq_true]
          intro name hname
          rcases (listOk_iff hall).mp hok name hname with rfl | hk
          · exact absurd hname hstar
          · simpa using hk
  case h_3 hnone hlist =>
    apply follows_stop
    exact .inl ⟨hnone, hlist⟩

/-- A list that lets nothing slip is resolved by the rule. -/
theorem resolveOne_ok {cfg : Mapping} {key : Text} {default : List Tree} {names : List Text}
    (h : resolveOne p b cfg key default = .ok names) (hok : ListOk p b (listed cfg key default)) (hstar : ['*'] ∉ b.known)
    (name : Text) : name ∈ names ↔ Resolves p b (listed cfg key default) name := by
  unfold listed at hok ⊢
  unfold resolveOne at h
  generalize (Mapping.find key cfg).getD (.list default) = v at h hok
  split at h
  case h_1 =>
    cases h
    simp [Resolves, Tree.rows]
  case h_2 raw =>
    rcases mapM_str p raw with ⟨hnone, -⟩ | ⟨ts, hts, hall⟩
    · simp [hnone] at h
    · simp only [hts] at h
      split at h
      case isTrue hs =>
        cases h
        exact ⟨fun hk => ⟨hk, .inl ((mem_normalized hall).mp hs)⟩, fun hr => hr.1⟩
      case isFalse hs =>
        split at h
        case isTrue hknown =>
          cases h
          rw [mem_normalized hall]
          constructor
          · intro hn
            have hk := List.all_eq_true.mp hknown name ((mem_normalized hall).mpr hn)
            exact ⟨by simpa using hk, .inr hn⟩
          · rintro ⟨-, hn | hn⟩
            · exact absurd ((mem_normalized hall).mpr hn) hs
            · exact hn
        case isFalse => cases h
  case h_3 => cases h

theorem resolveAllowDenyList_follows (b : Block) (cfg : Mapping) :
    Follows p (resolveAllowDenyList p b cfg) (listParts b cfg) :=
  follows_bind (u := [_]) (resolveOne_follows b cfg _ _) fun _ _ =>
    follows_bind (u := [_]) (v := []) (resolveOne_follows b cfg _ _) fun _ _ => by simp [Follows]

theorem resolveAllowDenyList_ok {cfg : Mapping} {names : List Text} (h : resolveAllowDenyList p b cfg = .ok names)
    (hallowed : ListOk p b (listed cfg "allowed".toList [.str ['*']])) (hdisabled : ListOk p b (listed cfg "disabled".toList []))
    (hstar : ['*'] ∉ b.known) : Resolved p b cfg names := by
  obtain ⟨allowed, ha, h⟩ := bind_ok h
  obtain ⟨disabled, hd, h⟩ := bind_ok h
  cases h
  intro name
  rw [← resolveOne_ok ha hallowed hstar, ← resolveOne_ok hd hdisabled hstar]
  simp

/-! ## The whole file -/

theorem parseLimits_follows (cfg : Mapping) (ls : List Limit) (r : RateLimits) :
    Follows p (parseLimits cfg ls r) (ls.map fun l => .limit (Mapping.find l.key cfg)) := by
  induction ls generalizing r with
  | nil => simp [parseLimits, Follows]
  | cons l ls ih =>
      rw [parseLimits, List.map_cons]
      cases hv : Mapping.find l.key cfg with
      | none => exact follows_cons (by simp [Part.Passed, Part.Refused, Part.Crashes]) (ih r)
      | some v =>
          apply follows_bind (u := [_]) _ fun n _ => ih _
          cases v with
          | int n => apply follows_pass <;> simp [Part.Refused, Part.Crashes]
          | float x =>
              cases x with
              | fin q => apply follows_pass <;> simp [Part.Refused, Part.Crashes]
              | _ => exact follows_stop ⟨_, rfl, fun q hq => by cases hq⟩
          | _ => exact follows_stop ⟨_, rfl, by simp, by simp⟩

theorem parseAuthRateLimits_follows (order : LimitOrder) (rateLimits : Mapping) :
    Follows p (parseAuthRateLimits order rateLimits) (blockParts rateLimits "authentication".toList
      [Limit.windowSeconds.key, Limit.failureThreshold.key, Limit.baseLockSeconds.key] ++
      order.limits.map fun l => .limit (Mapping.find l.key (under "authentication".toList rateLimits))) := by
  apply follows_bind (validatedBlock_follows _ _ _)
  intro cfg hcfg
  rw [← validatedBlock_ok hcfg]
  exact parseLimits_follows cfg _ _

theorem parseAccessDefault_follows (v : Tree) : Follows p (parseAccessDefault v) [.access v] := by
  unfold parseAccessDefault
  cases h : ConfigEditor.parseAccessDefault v with
  | some a => apply follows_pass <;> simp [Part.Refused, Part.Crashes, h]
  | none => exact follows_stop h

theorem fromMapping_follows (p : Printer) (order : LimitOrder) (raw : Tree) :
    Follows p (fromMapping p order raw) (parts order raw) := by
  unfold fromMapping parts
  split
  case h_2 hraw =>
    exact follows_stop (orElse_other hraw)
  case h_1 data hdata =>
    have htop : (Part.top raw).Passed p := by
      refine ⟨fun ⟨ht, hd⟩ => ?_, id⟩
      rw [Tree.orElse, if_pos ht] at hdata
      exact hd data hdata
    obtain rfl := orElse_dict hdata
    apply follows_cons htop
    apply follows_bind (u := [_]) (checkKeys_follows _ _ _)
    intro _ _
    apply follows_bind (validatedBlock_follows _ _ _)
    intro cfg hcfg
    rw [← validatedBlock_ok hcfg]
    apply follows_bind (resolveAllowDenyList_follows _ _)
    intro _ _
    apply follows_bind (validatedBlock_follows _ _ _)
    intro cfg hcfg
    rw [← validatedBlock_ok hcfg]
    apply follows_bind (resolveAllowDenyList_follows _ _)
    intro _ _
    apply follows_bind (validatedBlock_follows _ _ _)
    intro cfg hcfg
    rw [← validatedBlock_ok hcfg, ← List.append_assoc]
    apply follows_bind (parseAuthRateLimits_follows _ _)
    intro _ _
    exact follows_bind (u := [_]) (v := []) (parseAccessDefault_follows _) fun _ _ => by simp [Follows]

/-! ## What slips through -/

theorem knownKeys_of_passed {known : List Text} {m : Mapping} (h : (Part.keys known m).Passed p) : KnownKeys known m := by
  apply by_contra
  intro hn
  apply h.1 ⟨hn, fun e he => ?_⟩
  cases hk : e.1 with
  | str t => exact ⟨t, rfl⟩
  | other n => exact absurd ⟨e, he, n, hk⟩ h.2

theorem blockOk_iff {data : Mapping} {name : Text} {keys : List Text}
    (h : ∀ part ∈ blockParts data name keys, part.Passed p) :
    (∀ part ∈ blockParts data name keys, ¬ part.Slips p) ↔ BlockOk keys (Mapping.get name data) := by
  obtain ⟨⟨hblock, -⟩, hkeys⟩ : (Part.block (Mapping.get name data)).Passed p ∧
      (Part.keys keys (under name data)).Passed p := by simpa [blockParts] using h
  have hknown : KnownKeys keys (under name data) := knownKeys_of_passed hkeys
  have hslips : (∀ part ∈ blockParts data name keys, ¬ part.Slips p) ↔ ¬ (Part.block (Mapping.get name data)).Slips p := by
    simp [blockParts, Part.Slips]
  rw [hslips]
  apply Iff.trans _ (and_iff_left hknown).symm
  constructor
  · intro hs
    by_cases hd : ∃ m, Mapping.get name data = .dict m
    · exact .inr hd
    · left
      apply by_contra
      intro hn
      by_cases ht : (Mapping.get name data).truthy
      · exact hblock ⟨ht, not_exists.mp hd⟩
      · exact hs ⟨eq_false_of_ne_true ht, hn, not_exists.mp hd⟩
  · rintro (hn | ⟨m, hm⟩) ⟨-, hne, hd⟩
    · exact hne hn
    · exact hd m hm

theorem listOk_of_names {b : Block} {v : Tree} (h : (Part.names b v).Passed p) :
    ¬ (Part.names b v).Slips p ↔ ListOk p b v.rows := by
  constructor
  · intro hs
    apply by_contra
    intro hbad
    have hstr : ∀ x ∈ v.rows, p.str x ≠ none := fun x hx hn => h.2 ⟨x, hx, hn⟩
    by_cases hstar : ∃ x ∈ v.rows, NameOf p b x ['*']
    · exact hs ⟨hstar, hbad⟩
    · exact h.1 (.inr ⟨hstr, fun x hx hn => hstar ⟨x, hx, hn⟩, hbad⟩)
  · exact fun hok hs => hs.2 hok

theorem listsOk_iff {b : Block} {cfg : Mapping} (h : ∀ part ∈ listParts b cfg, part.Passed p) :
    (∀ part ∈ listParts b cfg, ¬ part.Slips p) ↔
      ListOk p b (listed cfg "allowed".toList [.str ['*']]) ∧ ListOk p b (listed cfg "disabled".toList []) := by
  simp only [listParts, List.forall_mem_cons, List.not_mem_nil, false_implies, implies_true, and_true] at h ⊢
  rw [listOk_of_names h.1, listOk_of_names h.2]
  rfl

/-- A file that nothing is refused in is well formed exactly when nothing slips through. -/
theorem wellFormed_iff {order : LimitOrder} {raw : Tree} (h : ∀ part ∈ parts order raw, part.Passed p) :
    (∀ part ∈ parts order raw, ¬ part.Slips p) ↔ WellFormed p raw.entries := by
  unfold parts at h ⊢
  simp only [List.forall_mem_append] at h ⊢
  obtain ⟨htop, hadapters, hadapterLists, heditor, heditorLists, hrate, hauth, -, -⟩ := h
  rw [blockOk_iff hadapters, listsOk_iff hadapterLists, blockOk_iff heditor, listsOk_iff heditorLists, blockOk_iff hrate,
    blockOk_iff hauth]
  have hkeys : KnownKeys topLevelKeys raw.entries := knownKeys_of_passed (htop _ (by simp))
  constructor
  · rintro ⟨-, ha, hal, he, hel, hr, hauth, -, -⟩
    exact ⟨hkeys, by simpa using ⟨⟨ha, hal⟩, he, hel⟩, hr, hauth⟩
  · intro hwf
    have hblocks := hwf.allowDeny
    simp only [List.forall_mem_cons, List.not_mem_nil, false_implies, implies_true, and_true] at hblocks
    refine ⟨by simp [Part.Slips], hblocks.1.1, hblocks.1.2, hblocks.2.1, hblocks.2.2, hwf.rateLimits, hwf.authentication, ?_, ?_⟩
    · simp [Part.Slips]
    · simp [Part.Slips]

/-- The sets of a policy that comes of a well-formed file. -/
theorem fromMapping_ok {order : LimitOrder} {raw : Tree} {policy : SecurityPolicy} (h : fromMapping p order raw = .ok policy)
    (hwf : WellFormed p raw.entries) : Resolved p adapters (under adapters.name raw.entries) policy.allowedAdapterTypes ∧
      Resolved p configEditor (under configEditor.name raw.entries) policy.configEditorWritableSections := by
  unfold fromMapping at h
  split at h
  case h_2 => cases h
  case h_1 data hdata =>
    obtain rfl := orElse_dict hdata
    obtain ⟨_, -, h⟩ := bind_ok h
    obtain ⟨acfg, hacfg, h⟩ := bind_ok h
    obtain ⟨allowed, hallowed, h⟩ := bind_ok h
    obtain ⟨ecfg, hecfg, h⟩ := bind_ok h
    obtain ⟨sections, hsections, h⟩ := bind_ok h
    obtain ⟨rcfg, -, h⟩ := bind_ok h
    obtain ⟨limits, -, h⟩ := bind_ok h
    obtain ⟨access, -, h⟩ := bind_ok h
    cases h
    obtain rfl := validatedBlock_ok hacfg
    obtain rfl := validatedBlock_ok hecfg
    obtain ⟨-, hal, had⟩ := hwf.allowDeny adapters (by simp)
    obtain ⟨-, hel, hed⟩ := hwf.allowDeny configEditor (by simp)
    exact ⟨resolveAllowDenyList_ok hallowed hal had (by decide), resolveAllowDenyList_ok hsections hel hed (by decide)⟩

end OpenMux.ConfigEditor.Parsing
