import OpenMux.Wire.Control

/-!
# Reading back what was written
-/

namespace Py

variable {sep : Char} {k : Nat} {t u p : Text} {ps : List Text}

/-! ## Blanks at the end -/

theorem rstrip_append_of_ne (h : rstrip u ≠ []) : rstrip (t ++ u) = t ++ rstrip u := by
  have hne : u.reverse.dropWhile isSpace ≠ [] := fun hnil => h (by simp [rstrip, List.rdropWhile, hnil])
  simp [rstrip, List.rdropWhile, List.dropWhile_append, hne]

theorem rstrip_append_of_nil (h : rstrip u = []) : rstrip (t ++ u) = rstrip t := by
  have hnil : u.reverse.dropWhile isSpace = [] := by simpa [rstrip, List.rdropWhile] using h
  simp [rstrip, List.rdropWhile, List.dropWhile_append, hnil]

theorem rstrip_append (h : Kept t) : rstrip (t ++ u) = t ++ rstrip u := by
  by_cases hu : rstrip u = []
  · rw [rstrip_append_of_nil hu, hu, List.append_nil]
    exact h
  · exact rstrip_append_of_ne hu

theorem Kept.append (h : Kept u) (hne : u ≠ []) : Kept (t ++ u) := by
  rw [Kept, rstrip_append_of_ne (by rw [h]; exact hne), h]

theorem kept_of_all (h : ∀ c ∈ t, isSpace c = false) : Kept t :=
  List.rdropWhile_eq_self_iff.mpr fun hne => by simpa using h _ (List.getLast_mem hne)

theorem strip_cons {c : Char} (h : isSpace c = false) (t : Text) : strip (c :: t) = rstrip (c :: t) := by
  rw [strip, dropWhile_of_head h, rstrip, List.rdropWhile]

/-! ## Pieces -/

/-- The first piece goes up to the first separator. -/
theorem split_succ (sep : Char) (k : Nat) (t : Text) : ∃ ps, split sep (k + 1) t = t.takeWhile (· ≠ sep) :: ps := by
  induction t with
  | nil => exact ⟨[], rfl⟩
  | cons c t ih =>
      obtain ⟨ps, hps⟩ := ih
      by_cases hc : c = sep
      · exact ⟨split sep k t, by simp [split, hc]⟩
      · exact ⟨ps, by simp [split, hc, hps]⟩

theorem takeWhile_append_sep (h : sep ∉ t) (u : Text) : (t ++ sep :: u).takeWhile (· ≠ sep) = t := by
  induction t with
  | nil => simp
  | cons c t ih =>
      obtain ⟨hc, ht⟩ := not_or.mp fun hor => h (List.mem_cons.mpr hor)
      simp only [List.cons_append, List.takeWhile_cons, ne_eq, Ne.symm hc, not_false_eq_true, decide_true, if_true, ih ht]

theorem notMem_takeWhile (sep : Char) (t : Text) : sep ∉ t.takeWhile (· ≠ sep) := fun h => by
  simpa using List.mem_takeWhile_imp h

theorem takeWhile_eq_iff : (t ++ sep :: u).takeWhile (· ≠ sep) = t ↔ sep ∉ t :=
  ⟨fun h => h ▸ notMem_takeWhile sep _, fun h => takeWhile_append_sep h u⟩

theorem split_more (h : t.count sep ≤ k) : split sep (k + 1) t = split sep k t := by
  induction t generalizing k with
  | nil => rw [split, split]
  | cons c t ih =>
      cases k with
      | zero =>
          have hnot : sep ∉ c :: t := List.count_eq_zero.mp (Nat.le_zero.mp h)
          rw [split_self hnot, split_self hnot]
      | succ k =>
          by_cases hc : c = sep
          · subst hc
            rw [List.count_cons_self] at h
            rw [split_sep, split_sep, ih (by omega)]
          · rw [List.count_cons_of_ne hc] at h
            simp only [split, if_neg hc, ih h]

/-- With enough splits no piece holds a separator, and more make no difference. -/
theorem split_enough (h : t.count sep ≤ k) : split sep k t = split sep (t.count sep) t := by
  induction k, h using Nat.le_induction with
  | base => rfl
  | succ k hk ih => rw [split_more hk, ih]

theorem splitAll_piece (h : sep ∉ t) : splitAll sep (t ++ sep :: u) = t :: splitAll sep u := by
  have hk : (t ++ sep :: u).length = (t.length + u.length) + 1 := by simp; omega
  rw [splitAll, hk, split_piece h, splitAll]
  rw [split_enough (List.count_le_length.trans (by omega)), split_enough (List.count_le_length (l := u))]

theorem notMem_splitAll (h : p ∈ splitAll sep t) : sep ∉ p := notMem_split le_rfl h

theorem splitAll_self (h : sep ∉ t) : splitAll sep t = [t] := split_self h

/-- Lines that are joined come apart again, with what follows them. -/
theorem splitAll_intercalate (h : ∀ p ∈ ps, sep ∉ p) (hne : ps ≠ []) (u : Text) :
    splitAll sep ([sep].intercalate ps ++ sep :: u) = ps ++ splitAll sep u := by
  induction ps with
  | nil => exact absurd rfl hne
  | cons p ps ih =>
      obtain ⟨hp, hps⟩ := List.forall_mem_cons.mp h
      cases ps with
      | nil => rw [List.intercalate_singleton, splitAll_piece hp]; rfl
      | cons q qs =>
          rw [List.intercalate_cons_cons, List.append_assoc, List.append_assoc, List.singleton_append, splitAll_piece hp,
            ih hps (List.cons_ne_nil q qs)]
          rfl

end Py

namespace OpenMux.Wire

open Py JsonText

variable {V : Conversions} {marker name payload text body : Text} {lines : List Text} {m : Control}

/-! ## Lines -/

theorem dropPrefix?_append (marker name : Text) : (marker ++ name).dropPrefix? marker = some name :=
  List.dropPrefix?_eq_some_iff.mpr ⟨marker, rfl, beq_self_eq_true marker⟩

theorem linesAfter_eq (hmarker : '\n' ∉ marker) (hname : '\n' ∉ name) (body : Text) :
    linesAfter marker (marker ++ (name ++ '\n' :: body)) = some (name, splitAll '\n' body) := by
  have hfirst : '\n' ∉ marker ++ name := by simp [hmarker, hname]
  rw [linesAfter, ← List.append_assoc, splitAll_piece hfirst]
  simp only [dropPrefix?_append, Option.map_some]

theorem notMem_of_linesAfter (h : linesAfter marker payload = some (name, lines)) : '\n' ∉ name := by
  unfold linesAfter at h
  split at h
  · rename_i first rest hsplit
    obtain ⟨name', hdrop, heq⟩ := Option.map_eq_some_iff.mp h
    cases heq
    obtain ⟨marker', rfl, -⟩ := List.dropPrefix?_eq_some_iff.mp hdrop
    have hfirst := notMem_splitAll (t := payload) (p := marker' ++ name) (by rw [hsplit]; exact List.mem_cons_self)
    exact fun hmem => hfirst (List.mem_append_right _ hmem)
  · cases h

/-- A line that is kept by `linesUntil`. -/
def Line (endMarker t : Text) : Prop := '\n' ∉ t ∧ strip t = t ∧ t ≠ [] ∧ t ≠ endMarker

theorem linesUntil_of_lines {endMarker : Text} (hend : strip endMarker = endMarker) (h : ∀ t ∈ lines, Line endMarker t) :
    linesUntil endMarker (lines ++ [endMarker]) = lines := by
  induction lines with
  | nil => simp [linesUntil, hend]
  | cons t ts ih =>
      obtain ⟨⟨-, hstrip, hne, hmarker⟩, hts⟩ := List.forall_mem_cons.mp h
      have ih := ih hts
      unfold linesUntil at ih ⊢
      simp [hstrip, hne, hmarker] at ih ⊢
      exact ih

/-- The lines that were joined are found again, and an empty one between the first and the last is passed over. -/
theorem linesUntil_joined {endMarker : Text} (hend : strip endMarker = endMarker) (hline : '\n' ∉ endMarker) (h : ∀ t ∈ lines, Line endMarker t) :
    linesUntil endMarker (splitAll '\n' (['\n'].intercalate lines ++ '\n' :: endMarker)) = lines := by
  cases lines with
  | nil =>
      rw [List.intercalate_nil, List.nil_append, ← List.nil_append ('\n' :: endMarker), splitAll_piece (by simp), splitAll_self hline]
      have hnil : strip [] = [] := rfl
      cases endMarker <;> simp [linesUntil, hend, hnil]
  | cons t ts =>
      rw [splitAll_intercalate (fun t ht => (h t ht).1) (by simp), splitAll_self hline]
      exact linesUntil_of_lines hend h

theorem strip_obj (es : List (Text × Doc)) : strip (Doc.obj es).text = (Doc.obj es).text := by
  rw [Doc.text, strip_cons (by decide)]
  exact Kept.append (t := '\x7b' :: Doc.textEntries es) (kept_of_all (by simp [isSpace, wideSpaces])) (by simp)

theorem line_obj {es : List (Text × Doc)} (h : Doc.SoundEntries es) {endMarker : Text} (hend : endMarker.head? ≠ some '\x7b') :
    Line endMarker (Doc.obj es).text := by
  refine ⟨newline_notMem_text (d := .obj es) h, strip_obj es, by simp [Doc.text], ?_⟩
  rintro rfl
  exact hend rfl

theorem mapM_loads (ds : List Doc) (h : ∀ d ∈ ds, d.Sound) : (ds.map Doc.text).mapM loads = some ds := by
  induction ds with
  | nil => rfl
  | cons d ds ih =>
      obtain ⟨hd, hds⟩ := List.forall_mem_cons.mp h
      simp [loads_text hd, ih hds]

/-! ## Markers -/

theorem isPrefixOf_fork {w : Text} (h : w.isPrefixOf marker = false) (h' : marker.isPrefixOf w = false) (u : Text) :
    w.isPrefixOf (marker ++ u) = false := by
  rw [Bool.eq_false_iff, ne_eq, List.isPrefixOf_iff_prefix] at h h' ⊢
  intro hw
  obtain hle | hle := Nat.le_total w.length marker.length
  · exact h (List.prefix_of_prefix_length_le hw (List.prefix_append marker u) hle)
  · exact h' (List.prefix_of_prefix_length_le (List.prefix_append marker u) hw hle)

theorem isPrefixOf_append {w : Text} (h : w.isPrefixOf marker = true) (u : Text) : w.isPrefixOf (marker ++ u) = true :=
  List.isPrefixOf_iff_prefix.mpr ((List.isPrefixOf_iff_prefix.mp h).trans (List.prefix_append marker u))

theorem append_ne {w : Text} (h : marker.isPrefixOf w = false) (u : Text) : (marker ++ u = w) = False := by
  rw [eq_iff_iff, iff_false]
  rintro rfl
  rw [List.isPrefixOf_iff_prefix.mpr (List.prefix_append marker u)] at h
  cases h

theorem strip_marker (m : Control) (u : Text) : strip (m.marker ++ u) = m.marker ++ rstrip u := by
  have happend : ∀ {c : Char} {w : Text}, isSpace c = false → Kept (c :: w) → strip ((c :: w) ++ u) = (c :: w) ++ rstrip u := fun hc hw => by
    rw [List.cons_append, strip_cons hc, ← List.cons_append, rstrip_append hw]
  cases m <;> exact happend (by decide) (by unfold Kept; decide)

theorem process_auth {r : Received} (hauth : "AUTH:".toList.isPrefixOf m.marker = true) (h : ctlAuth (m.marker ++ rstrip text) = some r) :
    processControlCommand V (m.marker ++ text) = some r := by
  simp only [processControlCommand, strip_marker, isPrefixOf_append hauth, if_true, h]

theorem process_other (hauth : "AUTH:".toList.isPrefixOf m.marker = false) (hauth' : m.marker.isPrefixOf "AUTH:".toList = false) :
    processControlCommand V (m.marker ++ text) = ctlDispatch V (m.marker ++ rstrip text) := by
  simp only [processControlCommand, strip_marker, isPrefixOf_fork hauth hauth', Bool.false_eq_true, if_false]

/-! ## Authentication -/

theorem splitAll_cons (sep : Char) (t : Text) : ∃ ps, splitAll sep t = t.takeWhile (· ≠ sep) :: ps := by
  cases t with
  | nil => exact ⟨[], rfl⟩
  | cons c t => exact split_succ sep t.length (c :: t)

theorem rstrip_front (t : Text) : rstrip t <+: t := List.rdropWhile_prefix _ _

/-- A last part is read as it was written exactly if it has no separator and no blank at its end. -/
theorem takeWhile_rstrip_iff {sep : Char} {t : Text} : (rstrip t).takeWhile (· ≠ sep) = t ↔ sep ∉ t ∧ Kept t := by
  constructor
  · intro h
    have hprefix : t <+: rstrip t := by
      conv_lhs => rw [← h]
      exact List.takeWhile_prefix _
    refine ⟨h ▸ notMem_takeWhile sep _, ?_⟩
    exact (rstrip_front t).eq_of_length_le hprefix.length_le
  · rintro ⟨hsep, hkept⟩
    rw [hkept]
    exact List.takeWhile_eq_self_iff.mpr fun c hc => by
      rw [decide_eq_true_eq]
      rintro rfl
      exact hsep hc

/-- The first two of the pieces of two parts with a separator between them. -/
theorem splitAll_two (sep : Char) (t u : Text) : ∃ v ps, splitAll sep (t ++ sep :: u) = (t ++ sep :: u).takeWhile (· ≠ sep) :: v :: ps ∧
    (sep ∉ t → v = u.takeWhile (· ≠ sep)) := by
  obtain ⟨parts, hparts⟩ := splitAll_cons sep (t ++ sep :: u)
  have hlen : 2 ≤ (splitAll sep (t ++ sep :: u)).length := by
    rw [splitAll, length_split sep le_rfl, List.count_append, List.count_cons_self]
    omega
  rw [hparts, List.length_cons] at hlen
  obtain ⟨v, ps, rfl⟩ := List.exists_cons_of_length_pos (l := parts) (by omega)
  refine ⟨v, ps, hparts, fun ht => ?_⟩
  obtain ⟨qs, hqs⟩ := splitAll_cons sep u
  rw [splitAll_piece ht, hqs] at hparts
  exact (List.cons.inj (List.cons.inj hparts).2).1.symm

theorem splitAll_auth {form : Text} (hform : ':' ∉ form) (t : Text) :
    splitAll ':' ("AUTH".toList ++ ':' :: ("PK".toList ++ ':' :: (form ++ ':' :: t))) = "AUTH".toList :: "PK".toList :: form :: splitAll ':' t := by
  rw [splitAll_piece (by decide), splitAll_piece (by decide), splitAll_piece hform]

theorem ctlAuth_challenge (keyId value : Text) : ∃ value', ctlAuth ("AUTH:PK:CHALLENGE:".toList ++ (keyId ++ ':' :: value)) =
    some (.authChallenge ((keyId ++ ':' :: value).takeWhile (· ≠ ':')) value') ∧ (':' ∉ keyId → value' = value.takeWhile (· ≠ ':')) := by
  obtain ⟨v, ps, hsplit, hv⟩ := splitAll_two ':' keyId value
  refine ⟨v, ?_, hv⟩
  have hform := splitAll_auth (by decide : ':' ∉ "CHALLENGE".toList) (keyId ++ ':' :: value)
  rw [hsplit] at hform
  have hparts : splitAll ':' ("AUTH:PK:CHALLENGE:".toList ++ (keyId ++ ':' :: value)) = _ := hform
  unfold ctlAuth
  dsimp only
  rw [hparts]
  exact if_pos ⟨rfl, by simp only [List.length_cons]; omega, rfl⟩

theorem ctlAuth_response (keyId value : Text) : ∃ value', ctlAuth ("AUTH:PK:RESPONSE:".toList ++ (keyId ++ ':' :: value)) =
    some (.authResponse ((keyId ++ ':' :: value).takeWhile (· ≠ ':')) value') ∧ (':' ∉ keyId → value' = value.takeWhile (· ≠ ':')) := by
  obtain ⟨v, ps, hsplit, hv⟩ := splitAll_two ':' keyId value
  refine ⟨v, ?_, hv⟩
  have hform := splitAll_auth (by decide : ':' ∉ "RESPONSE".toList) (keyId ++ ':' :: value)
  rw [hsplit] at hform
  have hparts : splitAll ':' ("AUTH:PK:RESPONSE:".toList ++ (keyId ++ ':' :: value)) = _ := hform
  unfold ctlAuth
  dsimp only
  rw [hparts, if_neg fun h => (by decide : "RESPONSE".toList ≠ "CHALLENGE".toList) h.2.2]
  exact if_pos ⟨rfl, by simp only [List.length_cons]; omega, rfl⟩

theorem ctlAuth_ok : ctlAuth ("AUTH:OK".toList ++ []) = some .authOk := rfl

theorem ctlAuth_error (code : Text) : ctlAuth ("AUTH:ERROR".toList ++ ':' :: code) = some (.authError (code.takeWhile (· ≠ ':'))) := by
  obtain ⟨ps, hps⟩ := splitAll_cons ':' code
  have hparts : splitAll ':' ("AUTH:ERROR".toList ++ ':' :: code) = "AUTH".toList :: "ERROR".toList :: code.takeWhile (· ≠ ':') :: ps := by
    have h₁ : splitAll ':' ("AUTH".toList ++ ':' :: ("ERROR".toList ++ ':' :: code)) = _ := splitAll_piece (by decide)
    have h₂ : splitAll ':' ("ERROR".toList ++ ':' :: code) = _ := splitAll_piece (by decide)
    exact h₁.trans (congrArg _ (h₂.trans (congrArg _ hps)))
  unfold ctlAuth
  dsimp only
  have hform : "ERROR".toList ≠ "PK".toList := by decide
  rw [hparts, if_neg fun h => hform h.1, if_neg fun h => hform h.1, if_neg, if_pos (isPrefixOf_append (by decide) _),
    if_pos (by simp only [List.length_cons]; omega)]
  · rfl
  · exact (append_ne (by decide) _).mp

/-! ## Bodies -/

theorem kept_obj (t : Text) (es : List (Text × Doc)) : Kept (t ++ (Doc.obj es).text) := by
  have hbrace : Kept ((t ++ '\x7b' :: Doc.textEntries es) ++ ['\x7d']) := Kept.append (by unfold Kept; decide) (by simp)
  simpa [Doc.text] using hbrace

theorem lineBody_obj {es : List (Text × Doc)} (h : Doc.SoundEntries es) : lineBody (splitAll '\n' (Doc.obj es).text) = some (.obj es) := by
  have hread : loads (Doc.obj es).text = some (.obj es) := loads_text (d := .obj es) h
  have hne : strip (Doc.obj es).text ≠ [] := by rw [strip_obj]; simp [Doc.text]
  rw [splitAll_self (newline_notMem_text (d := .obj es) h), lineBody]
  simp [hne, hread]

theorem headerBody_obj {header : Text} {es : List (Text × Doc)} (h : Doc.SoundEntries es) (hheader : '\n' ∉ header) :
    headerBody (header ++ '\n' :: (Doc.obj es).text) = some (header, .obj es) := by
  have hread : loads (Doc.obj es).text = some (.obj es) := loads_text (d := .obj es) h
  have hne : strip (Doc.obj es).text ≠ [] := by rw [strip_obj]; simp [Doc.text]
  have hlast : split '\n' 0 (Doc.obj es).text = [(Doc.obj es).text] := by rw [Doc.text, split]; simp
  rw [headerBody, split_piece hheader, hlast]
  simp [hne, hread]

theorem notMem_of_headerBody {header : Text} {d : Doc} (h : headerBody payload = some (header, d)) : '\n' ∉ header := by
  obtain ⟨ps, hps⟩ := split_succ '\n' 0 payload
  rw [Nat.zero_add] at hps
  have heq : header = payload.takeWhile (· ≠ '\n') := by
    unfold headerBody at h
    rw [hps] at h
    split at h
    · rename_i hsplit
      cases hsplit
      split at h
      · cases h; rfl
      · obtain ⟨d', -, heq⟩ := Option.map_eq_some_iff.mp h
        cases heq
        rfl
    · rename_i hsplit
      cases hsplit
      cases h
      rfl
    · cases h
  rw [heq]
  exact notMem_takeWhile '\n' payload

/-! ## Each marker leads to its own parser -/

theorem process_shutdownBegin (u : Text) : processControlCommand V ("MPATH:SHUTDOWN:BEGIN".toList ++ u) =
    some .shutdownBegin := by
  have hprocess : _ = ctlDispatch V ("MPATH:SHUTDOWN:BEGIN".toList ++ rstrip u) := process_other (m := .shutdownBegin [])  rfl rfl
  refine hprocess.trans ?_
  unfold ctlDispatch
  simp (disch := decide) only [isPrefixOf_fork, append_ne, isPrefixOf_append, Bool.false_eq_true, if_false, if_true]

theorem process_heartbeatRequest (u : Text) : processControlCommand V ("REQ:".toList ++ u) =
    some (.heartbeatRequest (afterColon 1 ("REQ:".toList ++ rstrip u))) := by
  have hprocess : _ = ctlDispatch V ("REQ:".toList ++ rstrip u) := process_other (m := .heartbeatRequest 0)  rfl rfl
  refine hprocess.trans ?_
  unfold ctlDispatch
  simp (disch := decide) only [isPrefixOf_fork, append_ne, isPrefixOf_append, Bool.false_eq_true, if_false, if_true]

theorem process_heartbeatAck (u : Text) : processControlCommand V ("ACK:".toList ++ u) =
    some (.heartbeatAck (afterColon 1 ("ACK:".toList ++ rstrip u))) := by
  have hprocess : _ = ctlDispatch V ("ACK:".toList ++ rstrip u) := process_other (m := .heartbeatAck 0)  rfl rfl
  refine hprocess.trans ?_
  unfold ctlDispatch
  simp (disch := decide) only [isPrefixOf_fork, append_ne, isPrefixOf_append, Bool.false_eq_true, if_false, if_true]

theorem process_portsFederated (u : Text) : processControlCommand V ("PORTS:FEDERATED:".toList ++ u) =
    (parsePortsFederated ("PORTS:FEDERATED:".toList ++ rstrip u)).map .portsFederated := by
  have hprocess : _ = ctlDispatch V ("PORTS:FEDERATED:".toList ++ rstrip u) := process_other (m := .portsFederated [])  rfl rfl
  refine hprocess.trans ?_
  unfold ctlDispatch
  simp (disch := decide) only [isPrefixOf_fork, append_ne, isPrefixOf_append, Bool.false_eq_true, if_false, if_true]

theorem process_viewers (u : Text) : processControlCommand V ("VIEWERS:".toList ++ u) =
    (parseViewersFrame ("VIEWERS:".toList ++ rstrip u)).map fun (name, entries) => .viewers name entries := by
  have hprocess : _ = ctlDispatch V ("VIEWERS:".toList ++ rstrip u) := process_other (m := .viewers [] [])  rfl rfl
  refine hprocess.trans ?_
  unfold ctlDispatch
  simp (disch := decide) only [isPrefixOf_fork, append_ne, isPrefixOf_append, Bool.false_eq_true, if_false, if_true]

theorem process_portStatus (u : Text) : processControlCommand V ("PORT_STATUS:".toList ++ u) =
    (parsePortStatusFrame V ("PORT_STATUS:".toList ++ rstrip u)).map
      fun (name, statusMessage, readiness) => .portStatus name statusMessage readiness := by
  have hprocess : _ = ctlDispatch V ("PORT_STATUS:".toList ++ rstrip u) := process_other (m := .portStatus [] [] [])  rfl rfl
  refine hprocess.trans ?_
  unfold ctlDispatch
  simp (disch := decide) only [isPrefixOf_fork, append_ne, isPrefixOf_append, Bool.false_eq_true, if_false, if_true]

theorem process_powerState (u : Text) : processControlCommand V ("POWER:STATE:".toList ++ u) =
    (parsePowerStateFrame V ("POWER:STATE:".toList ++ rstrip u)).map fun (name, ref, on) => .powerState name ref on := by
  have hprocess : _ = ctlDispatch V ("POWER:STATE:".toList ++ rstrip u) := process_other (m := .powerState [] [] none)  rfl rfl
  refine hprocess.trans ?_
  unfold ctlDispatch
  simp (disch := decide) only [isPrefixOf_fork, append_ne, isPrefixOf_append, Bool.false_eq_true, if_false, if_true]

theorem process_powerSwitch (u : Text) : processControlCommand V ("POWER:SWITCH:".toList ++ u) =
    (parsePowerSwitchFrame ("POWER:SWITCH:".toList ++ rstrip u)).map fun (name, sid, body) => .powerSwitch name sid body := by
  have hprocess : _ = ctlDispatch V ("POWER:SWITCH:".toList ++ rstrip u) := process_other (m := .powerSwitch [] 0 [] true [])  rfl rfl
  refine hprocess.trans ?_
  unfold ctlDispatch
  simp (disch := decide) only [isPrefixOf_fork, append_ne, isPrefixOf_append, Bool.false_eq_true, if_false, if_true]

theorem process_powerResult (u : Text) : processControlCommand V ("POWER:RESULT:".toList ++ u) =
    (parsePowerResultFrame V ("POWER:RESULT:".toList ++ rstrip u)).map fun (sid, ok, value) => .powerResult sid ok value := by
  have hprocess : _ = ctlDispatch V ("POWER:RESULT:".toList ++ rstrip u) := process_other (m := .powerResult 0 true none none)  rfl rfl
  refine hprocess.trans ?_
  unfold ctlDispatch
  simp (disch := decide) only [isPrefixOf_fork, append_ne, isPrefixOf_append, Bool.false_eq_true, if_false, if_true]

theorem process_fedrw (u : Text) : processControlCommand V ("FEDRW:".toList ++ u) =
    (parseFedrw ("FEDRW:".toList ++ rstrip u)).map fun (name, sid, action) => .fedrw name sid action := by
  have hprocess : _ = ctlDispatch V ("FEDRW:".toList ++ rstrip u) := process_other (m := .fedrw [] 0 [])  rfl rfl
  refine hprocess.trans ?_
  unfold ctlDispatch
  simp (disch := decide) only [isPrefixOf_fork, append_ne, isPrefixOf_append, Bool.false_eq_true, if_false, if_true]

theorem process_fedrwAck (u : Text) : processControlCommand V ("FEDRWACK:".toList ++ u) =
    (parseFedrw ("FEDRWACK:".toList ++ rstrip u)).map fun (name, sid, mode) => .fedrwAck name sid mode := by
  have hprocess : _ = ctlDispatch V ("FEDRWACK:".toList ++ rstrip u) := process_other (m := .fedrwAck [] 0 [])  rfl rfl
  refine hprocess.trans ?_
  unfold ctlDispatch
  simp (disch := decide) only [isPrefixOf_fork, append_ne, isPrefixOf_append, Bool.false_eq_true, if_false, if_true]

/-! ## What each parser reads -/

theorem kept_line (t : Text) (es : List (Text × Doc)) : rstrip (t ++ '\n' :: (Doc.obj es).text) = t ++ '\n' :: (Doc.obj es).text := by
  have h := kept_obj (t ++ ['\n']) es
  rwa [List.append_assoc] at h

theorem portStatus_name {a b : Text} (h : parsePortStatusFrame V payload = some (name, a, b)) : '\n' ∉ name := by
  simp only [parsePortStatusFrame, bind, Option.bind_eq_some_iff, pure, Option.some.injEq, Prod.mk.injEq] at h
  obtain ⟨⟨name', lines⟩, hlines, _, -, _, -, _, -, rfl, -⟩ := h
  exact notMem_of_linesAfter hlines

theorem parsePortStatusFrame_written (hname : '\n' ∉ name) (a b : Text) :
    parsePortStatusFrame V ("PORT_STATUS:".toList ++ (name ++ '\n' :: (Doc.obj (statusBody a b)).text)) = some (name, a, b) := by
  have hbody : lineBody (splitAll '\n' (Doc.obj (statusBody a b)).text) = _ := lineBody_obj ⟨trivial, trivial, trivial⟩
  rw [parsePortStatusFrame, linesAfter_eq (by decide) hname]
  simp only [bind, Option.bind_some, hbody]
  rfl

theorem powerState_name {ref : Text} {on : Option Bool} (h : parsePowerStateFrame V payload = some (name, ref, on)) :
    '\n' ∉ name ∧ ref ≠ [] := by
  simp only [parsePowerStateFrame, bind, Option.bind_eq_some_iff] at h
  obtain ⟨⟨name', lines⟩, hlines, _, -, _, -, h⟩ := h
  split at h
  · cases h
  · rename_i href
    obtain ⟨_, -, h⟩ := Option.bind_eq_some_iff.mp h
    cases h
    exact ⟨notMem_of_linesAfter hlines, href⟩

theorem parsePowerStateFrame_written (hname : '\n' ∉ name) {ref : Text} (href : ref ≠ []) (on : Option Bool) :
    parsePowerStateFrame V ("POWER:STATE:".toList ++ (name ++ '\n' :: (Doc.obj (stateBody ref on)).text)) = some (name, ref, on) := by
  have hsound : Doc.SoundEntries (stateBody ref on) := ⟨trivial, by cases on <;> trivial, trivial⟩
  rw [parsePowerStateFrame, linesAfter_eq (by decide) hname]
  simp only [bind, Option.bind_some, lineBody_obj hsound]
  have hget : bodyGet (.obj (stateBody ref on)) "ref".toList = some (some (.str ref)) := rfl
  have hon : bodyGet (.obj (stateBody ref on)) "on".toList = some (some (onDoc on)) := rfl
  rw [hget, hon]
  simp only [Option.bind_some, Conversions.strOr, href, if_false]
  cases on <;> rfl

theorem parseViewersFrame_name {ds : List Doc} (h : parseViewersFrame payload = some (name, ds)) : '\n' ∉ name := by
  simp only [parseViewersFrame, bind, Option.bind_eq_some_iff, pure, Option.some.injEq, Prod.mk.injEq] at h
  obtain ⟨⟨name', lines⟩, hlines, _, -, rfl, -⟩ := h
  exact notMem_of_linesAfter hlines

/-- The body lines of a list of objects. -/
theorem linesUntil_objs {endMarker : Text} (bodies : List (List (Text × Doc))) (hend : strip endMarker = endMarker) (hline : '\n' ∉ endMarker)
    (hhead : endMarker.head? ≠ some '\x7b') (h : ∀ es ∈ bodies, Doc.SoundEntries es) :
    linesUntil endMarker (splitAll '\n' (['\n'].intercalate (bodies.map fun es => (Doc.obj es).text) ++ '\n' :: endMarker)) =
      bodies.map fun es => (Doc.obj es).text := by
  refine linesUntil_joined hend hline fun t ht => ?_
  obtain ⟨es, hes, rfl⟩ := List.mem_map.mp ht
  exact line_obj (h es hes) hhead

theorem soundEntries_viewer (v : Viewer) : Doc.SoundEntries v.body := ⟨trivial, trivial, trivial, trivial, trivial⟩

theorem parseViewersFrame_written (hname : '\n' ∉ name) (entries : List Viewer) :
    parseViewersFrame ("VIEWERS:".toList ++ (name ++ '\n' :: (['\n'].intercalate (entries.map fun v => (Doc.obj v.body).text) ++
      "\nEND:VIEWERS".toList))) = some (name, entries.map fun v => .obj v.body) := by
  have hmarker : strip "END:VIEWERS".toList = "END:VIEWERS".toList := by decide
  have hlines := linesUntil_objs (entries.map Viewer.body) hmarker (by decide) (by decide) fun es hes => by
    obtain ⟨v, -, rfl⟩ := List.mem_map.mp hes
    exact soundEntries_viewer v
  have hloads := mapM_loads (entries.map fun v => .obj v.body) fun d hd => by
    obtain ⟨v, -, rfl⟩ := List.mem_map.mp hd
    exact soundEntries_viewer v
  have hend : "\nEND:VIEWERS".toList = '\n' :: "END:VIEWERS".toList := rfl
  rw [List.map_map] at hlines hloads
  rw [parseViewersFrame, hend, linesAfter_eq (by decide) hname]
  simp only [bind, Option.bind_some]
  have hmap : linesUntil "END:VIEWERS".toList (splitAll '\n' (['\n'].intercalate (entries.map fun v => (Doc.obj v.body).text) ++
      '\n' :: "END:VIEWERS".toList)) = entries.map fun v => (Doc.obj v.body).text := hlines
  have hread : (entries.map fun v => (Doc.obj v.body).text).mapM loads = some (entries.map fun v => .obj v.body) := hloads
  rw [hmap, hread]
  rfl

theorem splitAll_str {k : Int} {sid : Text} (h : str k = some sid) : '\n' ∉ sid ∧ ':' ∉ sid :=
  ⟨not_mem_str h (by decide) (by decide), not_mem_str h (by decide) (by decide)⟩

theorem filterMap_loadsObject (ports : List JsonDict) : (ports.map fun p => (Doc.obj p.1).text).filterMap loadsObject = ports.map Subtype.val := by
  induction ports with
  | nil => rfl
  | cons p ps ih =>
      have hread : loadsObject (Doc.obj p.1).text = some p.1 := by
        rw [loadsObject, loads_text (d := .obj p.1) p.2]
      rw [List.map_cons, List.filterMap_cons_some hread, ih, List.map_cons]

theorem parsePortsFederated_written {count : Text} (hcount : '\n' ∉ count) (ports : List JsonDict) :
    parsePortsFederated ("PORTS:FEDERATED:".toList ++ (count ++ '\n' :: (['\n'].intercalate (ports.map fun p => (Doc.obj p.1).text) ++
      "\nEND:PORTS".toList))) = some (ports.map Subtype.val) := by
  have hend : "\nEND:PORTS".toList = '\n' :: "END:PORTS".toList := rfl
  have hmarker : strip "END:PORTS".toList = "END:PORTS".toList := by decide
  have hlines := linesUntil_objs (ports.map Subtype.val) hmarker (by decide) (by decide) fun es hes => by
    obtain ⟨p, -, rfl⟩ := List.mem_map.mp hes
    exact p.2
  rw [List.map_map] at hlines
  have hmap : linesUntil "END:PORTS".toList (splitAll '\n' (['\n'].intercalate (ports.map fun p => (Doc.obj p.1).text) ++
      '\n' :: "END:PORTS".toList)) = ports.map fun p => (Doc.obj p.1).text := hlines
  rw [parsePortsFederated, hend, linesAfter_eq (by decide) hcount]
  simp only [Option.map_some, hmap, Option.some.injEq]
  exact filterMap_loadsObject ports

theorem parsePowerSwitchFrame_name {sid : Int} {d : Doc} (h : parsePowerSwitchFrame payload = some (name, sid, d)) : ':' ∉ name ∧ '\n' ∉ name := by
  simp only [parsePowerSwitchFrame, bind, Option.bind_eq_some_iff] at h
  obtain ⟨⟨header, body⟩, hheader, h⟩ := h
  obtain ⟨ps, hps⟩ := split_succ ':' 0 (header.drop "POWER:SWITCH:".toList.length)
  rw [Nat.zero_add] at hps
  simp only [hps] at h
  split at h
  · rename_i portName sid' hsplit
    cases hsplit
    obtain ⟨_, -, heq⟩ := Option.bind_eq_some_iff.mp h
    cases heq
    refine ⟨notMem_takeWhile ':' _, fun hmem => notMem_of_headerBody hheader ?_⟩
    exact List.mem_of_mem_drop ((List.takeWhile_sublist _).subset hmem)
  · cases h

theorem soundEntries_switch (ref : Text) (on : Bool) (claims : List Text) : Doc.SoundEntries (switchBody ref on claims) := by
  have helements : ∀ ts : List Text, Doc.SoundElements (ts.map .str) := fun ts => by
    induction ts with
    | nil => trivial
    | cons t ts ih => exact ⟨trivial, ih⟩
  exact ⟨trivial, trivial, helements _, trivial⟩

theorem parsePowerSwitchFrame_written {k : Int} {sid : Text} (hsid : str k = some sid) (hcolon : ':' ∉ name) (hline : '\n' ∉ name)
    {es : List (Text × Doc)} (h : Doc.SoundEntries es) :
    parsePowerSwitchFrame ("POWER:SWITCH:".toList ++ (name ++ ':' :: (sid ++ '\n' :: (Doc.obj es).text))) = some (name, k, .obj es) := by
  have hheader : '\n' ∉ "POWER:SWITCH:".toList ++ (name ++ ':' :: sid) := by
    simp [hline, (splitAll_str hsid).1]
  have hbody := headerBody_obj h hheader
  have hassoc : "POWER:SWITCH:".toList ++ (name ++ ':' :: (sid ++ '\n' :: (Doc.obj es).text)) =
      ("POWER:SWITCH:".toList ++ (name ++ ':' :: sid)) ++ '\n' :: (Doc.obj es).text := by simp
  have hlast : split ':' 0 sid = [sid] := split_self (splitAll_str hsid).2
  rw [parsePowerSwitchFrame, hassoc, hbody]
  simp only [bind, Option.bind_some, List.drop_left, split_piece hcolon, hlast, int_str hsid]
  rfl

section ResultBody

variable (ok : Bool) (error : Option Text) (on : Option Bool)

theorem soundEntries_result : Doc.SoundEntries (resultBody ok error on) := by
  unfold resultBody
  generalize error.filter (· ≠ []) = e
  cases e <;> cases on <;> exact ⟨trivial, by trivial⟩

theorem bodyGet_ok : bodyGet (.obj (resultBody ok error on)) "ok".toList = some (some (.bool ok)) := by
  unfold resultBody
  generalize error.filter (· ≠ []) = e
  cases e <;> cases on <;> rfl

theorem bodyGet_on : bodyGet (.obj (resultBody ok error on)) "on".toList = some (on.map .bool) := by
  unfold resultBody
  generalize error.filter (· ≠ []) = e
  cases e <;> cases on <;> rfl

theorem bodyGet_error : bodyGet (.obj (resultBody ok error on)) "error".toList = some ((error.filter (· ≠ [])).map .str) := by
  unfold resultBody
  generalize error.filter (· ≠ []) = e
  cases e <;> cases on <;> rfl

end ResultBody

theorem parsePowerResultFrame_written {k : Int} {sid : Text} (hsid : str k = some sid) (ok : Bool) (error : Option Text) (on : Option Bool) :
    parsePowerResultFrame V ("POWER:RESULT:".toList ++ (sid ++ '\n' :: (Doc.obj (resultBody ok error on)).text)) =
      some (k, ok, if ok then on.map .bool else (error.filter (· ≠ [])).map .str) := by
  have hheader : '\n' ∉ "POWER:RESULT:".toList ++ sid := by simp [(splitAll_str hsid).1]
  have hassoc : "POWER:RESULT:".toList ++ (sid ++ '\n' :: (Doc.obj (resultBody ok error on)).text) =
      ("POWER:RESULT:".toList ++ sid) ++ '\n' :: (Doc.obj (resultBody ok error on)).text := by simp
  rw [parsePowerResultFrame, hassoc, headerBody_obj (soundEntries_result ok error on) hheader]
  simp only [bind, Option.bind_some, List.drop_left, int_str hsid, bodyGet_ok, bodyGet_on, bodyGet_error, Option.map_some, Option.getD_some,
    Conversions.truthy]
  cases ok <;> rfl

theorem parseFedrw_name {k : Int} {last : Text} (h : parseFedrw (marker ++ ':' :: payload) = some (name, k, last)) (hmarker : ':' ∉ marker) :
    ':' ∉ name := by
  obtain ⟨ps, hps⟩ := split_succ ':' 1 payload
  rw [parseFedrw, split_piece hmarker, hps] at h
  split at h
  · rename_i hsplit
    cases hsplit
    obtain ⟨_, -, heq⟩ := Option.map_eq_some_iff.mp h
    cases heq
    exact notMem_takeWhile ':' payload
  · cases h

theorem parseFedrw_written {k : Int} {sid : Text} (hsid : str k = some sid) (hmarker : ':' ∉ marker) (hname : ':' ∉ name) (last : Text) :
    parseFedrw (marker ++ ':' :: (name ++ ':' :: (sid ++ ':' :: last))) = some (name, k, last) := by
  have hlast : split ':' 0 last = [last] := by cases last <;> rfl
  rw [parseFedrw, split_piece hmarker, split_piece hname, split_piece (splitAll_str hsid).2, hlast]
  simp only [int_str hsid, Option.map_some]

/-! ## Each message -/

theorem process_mpathEnd : processControlCommand V ("MPATH:END".toList ++ []) = some .mpathEnd := by
  have hprocess : _ = ctlDispatch V ("MPATH:END".toList ++ rstrip []) := process_other (m := .mpathEnd) rfl rfl
  refine hprocess.trans ?_
  rfl

theorem kept_str {k : Int} {t : Text} (h : str k = some t) : Kept t := kept_of_all fun _ hc => isSpace_of_mem_str h hc

theorem str_eq_decimal {k : Int} {t : Text} (h : str k = some t) : t = decimal k := (str_cases h).2

theorem afterColon_one {w : Text} (hw : ':' ∉ w) (t : Text) : afterColon 1 (w ++ ':' :: t) = t := by
  have hlast : split ':' 0 t = [t] := by cases t <;> rfl
  rw [afterColon, split_piece hw, hlast]
  rfl

theorem kept_endMarker {endMarker : Text} (h : Kept endMarker) (hne : endMarker ≠ []) (t u : Text) :
    rstrip (t ++ '\n' :: (u ++ endMarker)) = t ++ '\n' :: (u ++ endMarker) := by
  have happend : Kept ((t ++ '\n' :: u) ++ endMarker) := h.append hne
  simpa [Kept] using happend

theorem rstrip_colon (t u : Text) : rstrip (t ++ ':' :: u) = t ++ ':' :: rstrip u := by
  have hcolon : Kept (t ++ [':']) := Kept.append (by unfold Kept; decide) (by simp)
  have h := rstrip_append (u := u) hcolon
  simpa using h

theorem parts_iff {keyId value value' : Text} (h : ':' ∉ keyId → value' = (rstrip value).takeWhile (· ≠ ':')) :
    (keyId ++ ':' :: rstrip value).takeWhile (· ≠ ':') = keyId ∧ value' = value ↔ ':' ∉ keyId ∧ ':' ∉ value ∧ Kept value := by
  rw [takeWhile_eq_iff]
  constructor
  · rintro ⟨hkey, rfl⟩
    exact ⟨hkey, takeWhile_rstrip_iff.mp (h hkey).symm⟩
  · rintro ⟨hkey, hvalue⟩
    exact ⟨hkey, (h hkey).trans (takeWhile_rstrip_iff.mpr hvalue)⟩

namespace Control

/-- The message is read as what it is exactly if it is carried, and never as one of another kind. -/
def ReadBack (V : Conversions) (m : Control) (payload : Text) : Prop :=
  (processControlCommand V payload = some m.received ↔ m.Carried) ∧ ∀ r, processControlCommand V payload = some r → r.marker = m.marker

variable {k : Int} {sid : Text}

theorem readBack_of_some {r : Received} (h : processControlCommand V payload = some r) (hmarker : r.marker = m.marker)
    (hiff : r = m.received ↔ m.Carried) : ReadBack V m payload := by
  rw [ReadBack, h, Option.some.injEq]
  exact ⟨hiff, fun r' hr' => Option.some.inj hr' ▸ hmarker⟩

theorem readBack_authChallenge (keyId nonce : Text) : ReadBack V (.authChallenge keyId nonce) ("AUTH:PK:CHALLENGE:".toList ++ (keyId ++ ':' :: nonce)) := by
  obtain ⟨value, hauth, hvalue⟩ := ctlAuth_challenge keyId (rstrip nonce)
  rw [← rstrip_colon] at hauth
  refine readBack_of_some (process_auth (m := .authChallenge [] []) rfl hauth) rfl ?_
  rw [rstrip_colon, received, Received.authChallenge.injEq]
  exact parts_iff hvalue

theorem readBack_authResponse (keyId signature : Text) :
    ReadBack V (.authResponse keyId signature) ("AUTH:PK:RESPONSE:".toList ++ (keyId ++ ':' :: signature)) := by
  obtain ⟨value, hauth, hvalue⟩ := ctlAuth_response keyId (rstrip signature)
  rw [← rstrip_colon] at hauth
  refine readBack_of_some (process_auth (m := .authResponse [] []) rfl hauth) rfl ?_
  rw [rstrip_colon, received, Received.authResponse.injEq]
  exact parts_iff hvalue

theorem readBack_authError (code : Text) : ReadBack V (.authError code) ("AUTH:ERROR".toList ++ ':' :: code) := by
  have hauth := ctlAuth_error (rstrip code)
  have hcolon := rstrip_colon [] code
  rw [List.nil_append, List.nil_append] at hcolon
  rw [← hcolon] at hauth
  refine readBack_of_some (process_auth (m := .authError []) rfl hauth) rfl ?_
  rw [received, Received.authError.injEq]
  exact takeWhile_rstrip_iff

theorem readBack_portStatus (portName a b : Text) :
    ReadBack V (.portStatus portName a b) ("PORT_STATUS:".toList ++ (portName ++ '\n' :: (Doc.obj (statusBody a b)).text)) := by
  rw [ReadBack, process_portStatus, kept_line]
  refine ⟨⟨fun h => ?_, fun h => ?_⟩, fun r h => ?_⟩
  · obtain ⟨⟨name, a', b'⟩, hparse, heq⟩ := Option.map_eq_some_iff.mp h
    cases heq
    exact portStatus_name hparse
  · rw [parsePortStatusFrame_written h]
    rfl
  · obtain ⟨x, -, rfl⟩ := Option.map_eq_some_iff.mp h
    rfl

theorem readBack_powerState (portName ref : Text) (on : Option Bool) :
    ReadBack V (.powerState portName ref on) ("POWER:STATE:".toList ++ (portName ++ '\n' :: (Doc.obj (stateBody ref on)).text)) := by
  rw [ReadBack, process_powerState, kept_line]
  refine ⟨⟨fun h => ?_, fun h => ?_⟩, fun r h => ?_⟩
  · obtain ⟨⟨name, ref', on'⟩, hparse, heq⟩ := Option.map_eq_some_iff.mp h
    cases heq
    exact powerState_name hparse
  · rw [parsePowerStateFrame_written h.1 h.2]
    rfl
  · obtain ⟨x, -, rfl⟩ := Option.map_eq_some_iff.mp h
    rfl

theorem readBack_viewers (portName : Text) (entries : List Viewer) :
    ReadBack V (.viewers portName entries) ("VIEWERS:".toList ++
      (portName ++ '\n' :: (['\n'].intercalate (entries.map fun v => (Doc.obj v.body).text) ++ "\nEND:VIEWERS".toList))) := by
  rw [ReadBack, process_viewers, kept_endMarker (by unfold Kept; decide) (by decide)]
  refine ⟨⟨fun h => ?_, fun h => ?_⟩, fun r h => ?_⟩
  · obtain ⟨⟨name, ds⟩, hparse, heq⟩ := Option.map_eq_some_iff.mp h
    cases heq
    exact parseViewersFrame_name hparse
  · rw [parseViewersFrame_written h]
    rfl
  · obtain ⟨x, -, rfl⟩ := Option.map_eq_some_iff.mp h
    rfl

theorem readBack_portsFederated (ports : List JsonDict) {count : Text} (hcount : str ports.length = some count) :
    ReadBack V (.portsFederated ports) ("PORTS:FEDERATED:".toList ++
      (count ++ '\n' :: (['\n'].intercalate (ports.map fun p => (Doc.obj p.1).text) ++ "\nEND:PORTS".toList))) := by
  refine readBack_of_some (r := .portsFederated (ports.map Subtype.val)) ?_ rfl (iff_of_true rfl trivial)
  rw [process_portsFederated, kept_endMarker (by unfold Kept; decide) (by decide), parsePortsFederated_written (splitAll_str hcount).1]
  rfl

theorem readBack_powerSwitch (portName ref : Text) (on : Bool) (claims : List Text) (hsid : str k = some sid) :
    ReadBack V (.powerSwitch portName k ref on claims) ("POWER:SWITCH:".toList ++
      (portName ++ ':' :: (sid ++ '\n' :: (Doc.obj (switchBody ref on claims)).text))) := by
  have hkept := kept_line (portName ++ ':' :: sid) (switchBody ref on claims)
  rw [List.append_assoc, List.cons_append] at hkept
  rw [ReadBack, process_powerSwitch, hkept]
  refine ⟨⟨fun h => ?_, fun h => ?_⟩, fun r h => ?_⟩
  · obtain ⟨⟨name, sid', body⟩, hparse, heq⟩ := Option.map_eq_some_iff.mp h
    cases heq
    exact parsePowerSwitchFrame_name hparse
  · rw [parsePowerSwitchFrame_written hsid h.1 h.2 (soundEntries_switch ref on claims)]
    rfl
  · obtain ⟨x, -, rfl⟩ := Option.map_eq_some_iff.mp h
    rfl

theorem readBack_powerResult (ok : Bool) (error : Option Text) (on : Option Bool) (hsid : str k = some sid) :
    ReadBack V (.powerResult k ok error on) ("POWER:RESULT:".toList ++ (sid ++ '\n' :: (Doc.obj (resultBody ok error on)).text)) := by
  refine readBack_of_some (r := received (.powerResult k ok error on)) ?_ rfl (iff_of_true rfl trivial)
  rw [process_powerResult, kept_line, parsePowerResultFrame_written hsid]
  rfl

/-- The payloads of the two messages about a write slot differ in their marker only. -/
theorem parseFedrw_iff (hsid : str k = some sid) (hmarker : ':' ∉ marker) (portName last : Text) :
    parseFedrw (marker ++ ':' :: (portName ++ ':' :: (sid ++ ':' :: rstrip last))) = some (portName, k, last) ↔ ':' ∉ portName ∧ Kept last := by
  constructor
  · intro h
    have hname := parseFedrw_name h hmarker
    rw [parseFedrw_written hsid hmarker hname] at h
    exact ⟨hname, (Prod.mk.inj (Prod.mk.inj (Option.some.inj h)).2).2⟩
  · rintro ⟨hname, hlast⟩
    rw [hlast]
    exact parseFedrw_written hsid hmarker hname last

theorem readBack_fedrw (portName action : Text) (hsid : str k = some sid) :
    ReadBack V (.fedrw portName k action) ("FEDRW:".toList ++ (portName ++ ':' :: (sid ++ ':' :: action))) := by
  have hkept := rstrip_colon (portName ++ ':' :: sid) action
  rw [List.append_assoc, List.append_assoc, List.cons_append, List.cons_append] at hkept
  rw [ReadBack, process_fedrw, hkept]
  refine ⟨?_, fun r h => ?_⟩
  · refine Iff.trans ⟨fun h => ?_, fun h => ?_⟩ (parseFedrw_iff hsid (by decide : ':' ∉ "FEDRW".toList) portName action)
    · obtain ⟨⟨name, sid', last⟩, hparse, heq⟩ := Option.map_eq_some_iff.mp h
      cases heq
      exact hparse
    · exact congrArg (Option.map _) h
  · obtain ⟨x, -, rfl⟩ := Option.map_eq_some_iff.mp h
    rfl

theorem readBack_fedrwAck (portName mode : Text) (hsid : str k = some sid) :
    ReadBack V (.fedrwAck portName k mode) ("FEDRWACK:".toList ++ (portName ++ ':' :: (sid ++ ':' :: mode))) := by
  have hkept := rstrip_colon (portName ++ ':' :: sid) mode
  rw [List.append_assoc, List.append_assoc, List.cons_append, List.cons_append] at hkept
  rw [ReadBack, process_fedrwAck, hkept]
  refine ⟨?_, fun r h => ?_⟩
  · refine Iff.trans ⟨fun h => ?_, fun h => ?_⟩ (parseFedrw_iff hsid (by decide : ':' ∉ "FEDRWACK".toList) portName mode)
    · obtain ⟨⟨name, sid', last⟩, hparse, heq⟩ := Option.map_eq_some_iff.mp h
      cases heq
      exact hparse
    · exact congrArg (Option.map _) h
  · obtain ⟨x, -, rfl⟩ := Option.map_eq_some_iff.mp h
    rfl

theorem readBack (h : m.payload = some payload) : ReadBack V m payload := by
  obtain ⟨u, hu, rfl⟩ := Option.map_eq_some_iff.mp h
  cases m with
  | authChallenge keyId nonce => cases hu; exact readBack_authChallenge keyId nonce
  | authResponse keyId signature => cases hu; exact readBack_authResponse keyId signature
  | authOk => cases hu; exact readBack_of_some (process_auth (m := .authOk) rfl ctlAuth_ok) rfl (iff_of_true rfl trivial)
  | authError code => cases hu; exact readBack_authError code
  | shutdownBegin reason => cases hu; exact readBack_of_some (process_shutdownBegin _) rfl (iff_of_true rfl trivial)
  | mpathEnd => cases hu; exact readBack_of_some process_mpathEnd rfl (iff_of_true rfl trivial)
  | heartbeatRequest ts =>
      refine readBack_of_some (process_heartbeatRequest u) rfl (iff_of_true ?_ trivial)
      rw [kept_str hu, received, ← str_eq_decimal hu]
      exact congrArg _ (afterColon_one (w := "REQ".toList) (by decide) u)
  | heartbeatAck ts =>
      refine readBack_of_some (process_heartbeatAck u) rfl (iff_of_true ?_ trivial)
      rw [kept_str hu, received, ← str_eq_decimal hu]
      exact congrArg _ (afterColon_one (w := "ACK".toList) (by decide) u)
  | portsFederated ports =>
      obtain ⟨count, hcount, heq⟩ := Option.bind_eq_some_iff.mp hu
      cases heq
      exact readBack_portsFederated ports hcount
  | viewers portName entries => cases hu; exact readBack_viewers portName entries
  | portStatus portName a b => cases hu; exact readBack_portStatus portName a b
  | powerState portName ref on => cases hu; exact readBack_powerState portName ref on
  | powerSwitch portName k ref on claims =>
      obtain ⟨sid, hsid, heq⟩ := Option.bind_eq_some_iff.mp hu
      cases heq
      exact readBack_powerSwitch portName ref on claims hsid
  | powerResult k ok error on =>
      obtain ⟨sid, hsid, heq⟩ := Option.bind_eq_some_iff.mp hu
      cases heq
      exact readBack_powerResult ok error on hsid
  | fedrw portName k action =>
      obtain ⟨sid, hsid, heq⟩ := Option.bind_eq_some_iff.mp hu
      cases heq
      exact readBack_fedrw portName action hsid
  | fedrwAck portName k mode =>
      obtain ⟨sid, hsid, heq⟩ := Option.bind_eq_some_iff.mp hu
      cases heq
      exact readBack_fedrwAck portName mode hsid

end Control

end OpenMux.Wire
