import OpenMux.ConfigManager.Manager

/-!
# What a load and a save leave
-/

namespace OpenMux.ConfigManager

open Py

variable {π : Type} {lib : Yaml} {faults : ReadFaults} {disk : Disk} {m : Manager π} {text : Text} {d : Stored}

/-! ## Removed keys -/

/-- An entry of a dict. -/
def entry (config : Data) (k : Text) : Option Data :=
  match config with
  | .dict f => f (.str k)
  | _ => none

theorem entry_modify {k s : Text} (h : k ≠ s) (g : Data → Data) (config : Data) : entry (config.modify s g) k = entry config k := by
  cases config with
  | dict f =>
      have hne : Key.str k ≠ Key.str s := fun he => h (Key.str.inj he)
      simp only [Data.modify, entry, if_neg hne]
  | _ => rfl

theorem isSome_entry_modify (k s : Text) (g : Data → Data) (config : Data) :
    (entry (config.modify s g) k).isSome = (entry config k).isSome := by
  cases config with
  | dict f =>
      simp only [Data.modify, entry]
      split <;> simp
  | _ => rfl

@[simp] theorem isDict_modify (s : Text) (g : Data → Data) (config : Data) : (config.modify s g).isDict = config.isDict := by
  cases config <;> rfl

/-- The sections with removed keys, each with what happens to it. -/
def removals : List (Text × (Data → Data)) :=
  (removedListenerKeys.map fun key => ("muxcon".toList, fun mux =>
      mux.modify "listeners".toList fun listeners => listeners.each (Data.delete key))) ++
    (removedTopLevel ++ removedIdentityKeys).map (fun e => (e.1, Data.delete e.2)) ++
    [("command_ports".toList, fun ports => ports.each stripCommandPort)]

theorem withoutRemovedKeys_eq (config : Data) : withoutRemovedKeys config = removals.foldl (fun c e => c.modify e.1 e.2) config := by
  rw [removals, List.foldl_append, List.foldl_append, List.foldl_map, List.foldl_map]
  rfl

def sectionsWithRemovedKeys : List Text :=
  ["server".toList, "logging".toList, "muxcon".toList, "web_console".toList, "command_ports".toList]

theorem removals_sections : ∀ e ∈ removals, e.1 ∈ sectionsWithRemovedKeys := by
  simp only [removals, List.mem_append, List.mem_map, List.mem_singleton]
  have htop : ∀ e ∈ removedTopLevel ++ removedIdentityKeys, e.1 ∈ sectionsWithRemovedKeys := by decide
  rintro e ((⟨key, -, rfl⟩ | ⟨x, hx, rfl⟩) | rfl)
  · exact (by decide : "muxcon".toList ∈ sectionsWithRemovedKeys)
  · exact htop x (List.mem_append.mpr hx)
  · exact (by decide : "command_ports".toList ∈ sectionsWithRemovedKeys)

section

variable {k : Text} (hk : k ∉ sectionsWithRemovedKeys) (config v : Data)
include hk

theorem entry_withoutRemovedKeys : entry (withoutRemovedKeys config) k = entry config k := by
  have hfold : ∀ changes : List (Text × (Data → Data)), (∀ e ∈ changes, e.1 ∈ sectionsWithRemovedKeys) → ∀ config,
      entry (changes.foldl (fun c e => c.modify e.1 e.2) config) k = entry config k := by
    intro changes
    induction changes with
    | nil => exact fun _ _ => rfl
    | cons e es ih =>
        intro hes config
        have hne : k ≠ e.1 := fun he => hk (he ▸ hes e List.mem_cons_self)
        exact (ih (fun e' he' => hes e' (List.mem_cons_of_mem _ he')) _).trans (entry_modify hne e.2 config)
  rw [withoutRemovedKeys_eq, hfold removals removals_sections]

theorem withoutRemovedKeys_put : withoutRemovedKeys (config.put k v) = (withoutRemovedKeys config).put k v := by
  have hfold : ∀ changes : List (Text × (Data → Data)), (∀ e ∈ changes, e.1 ∈ sectionsWithRemovedKeys) → ∀ config : Data,
      changes.foldl (fun c e => c.modify e.1 e.2) (config.put k v) = (changes.foldl (fun c e => c.modify e.1 e.2) config).put k v := by
    intro changes
    induction changes with
    | nil => exact fun _ _ => rfl
    | cons e es ih =>
        intro hes config
        have hne : e.1 ≠ k := fun he => hk (he ▸ hes e List.mem_cons_self)
        rw [List.foldl_cons, List.foldl_cons, Data.modify_put hne]
        exact ih (fun e' he' => hes e' (List.mem_cons_of_mem _ he')) _
  rw [withoutRemovedKeys_eq, withoutRemovedKeys_eq, hfold removals removals_sections]

end

theorem isDict_withoutRemovedKeys (config : Data) : (withoutRemovedKeys config).isDict = config.isDict := by
  rw [withoutRemovedKeys_eq]
  generalize removals = changes
  induction changes generalizing config with
  | nil => rfl
  | cons e es ih => rw [List.foldl_cons, ih, isDict_modify]

theorem isDict_iff {v : Data} : v.isDict = true ↔ ∃ f, v = .dict f := by
  cases v <;> simp [Data.isDict]

theorem withoutRemovedKeys_dict (f : Data.Entries) : ∃ f', withoutRemovedKeys (.dict f) = .dict f' :=
  isDict_iff.mp (isDict_withoutRemovedKeys _)

theorem loopable_entry_modify (k : Text) (g : Data → Data) (f : Data.Entries) :
    ((entry ((Data.dict f).modify k fun v => v.each g) k).getD .none).loopable = ((f (.str k)).getD .none).loopable := by
  have hentry : entry ((Data.dict f).modify k fun v => v.each g) k = (f (.str k)).map fun v => v.each g := if_pos rfl
  rw [hentry]
  cases f (.str k) with
  | none => rfl
  | some v => exact Data.loopable_each g v

/-- What the loop over the command ports goes over is not changed by the removal of keys. -/
theorem absorbRemovedCommandPortKeys_iff {config : Data} {f : Data.Entries} (h : withoutRemovedKeys config = .dict f) :
    absorbRemovedCommandPortKeys (stripRemovedLocationKeys config) =
      if ((f (.str "command_ports".toList)).getD .none).loopable then some (.dict f) else none := by
  have hstrip : stripCommandPorts (stripRemovedLocationKeys config) = .dict f := h
  rw [absorbRemovedCommandPortKeys, hstrip]
  cases hlocation : stripRemovedLocationKeys config with
  | dict g =>
      have hloopable := loopable_entry_modify "command_ports".toList stripCommandPort g
      rw [hlocation, stripCommandPorts] at hstrip
      rw [hstrip] at hloopable
      exact if_congr (iff_of_eq (congrArg (· = true) hloopable.symm)) rfl rfl
  | _ =>
      rw [hlocation] at hstrip
      cases hstrip

/-! ## Validation -/

theorem checkSerialPort_ok {i : ℕ} {port : Data} : checkSerialPort i port = .ok () ↔ SerialPortValid port := by
  cases port with
  | dict f =>
      simp only [checkSerialPort, SerialPortValid, Data.dict.injEq, exists_eq_left']
      generalize f (.str "name".toList) = name, isRtscts ((f (.str "flow_control".toList)).getD .none) = rtscts,
        linePolicyManaged ((f (.str "rts".toList)).getD .none) = managed
      cases name <;> cases rtscts <;> cases managed <;> simp
  | _ => simp [checkSerialPort, SerialPortValid]

theorem checkSerialPorts_ok {i : ℕ} {ports : List Data} : checkSerialPorts i ports = .ok () ↔ ∀ port ∈ ports, SerialPortValid port := by
  induction ports generalizing i with
  | nil => simp [checkSerialPorts]
  | cons port ports ih =>
      rw [List.forall_mem_cons, ← checkSerialPort_ok (i := i), ← ih (i := i + 1), checkSerialPorts]
      cases checkSerialPort i port <;> simp

theorem validateSerialPortsConfig_ok {v : Data} :
    validateSerialPortsConfig v = .ok () ↔ ∃ ports, v = .list ports ∧ ∀ port ∈ ports, SerialPortValid port := by
  cases v <;> simp [validateSerialPortsConfig, checkSerialPorts_ok]

theorem validateSections_ok {config : Data.Entries} {auth : Data} : validateSections config auth = .ok () ↔
    (∃ method ∈ authMethods, auth.has method = some true) ∧
      ∀ v, config (.str "serial_ports".toList) = some v → ∃ ports, v = .list ports ∧ ∀ port ∈ ports, SerialPortValid port := by
  by_cases hmethod : ∃ method ∈ authMethods, auth.has method = some true
  · have hany : (authMethods.any fun method => auth.has method = some true) = true := by simpa using hmethod
    rw [validateSections, if_pos hany, and_iff_right hmethod]
    cases hserial : config (.str "serial_ports".toList) with
    | none => simp
    | some v => simp [validateSerialPortsConfig_ok]
  · have hany : (authMethods.any fun method => auth.has method = some true) = false := by simpa using hmethod
    simp [validateSections, hany, hmethod]

/-! ## Loading -/

theorem loadAuthenticationFile_ok {auth : Data} : loadAuthenticationFile lib faults disk = .ok auth ↔
    ∃ content data, (disk.auth.file = some content ∧ faults.auth = false ∧ lib.safeLoad content = some data) ∧ data.orDict.isDict ∧
      data.orDict = auth := by
  unfold loadAuthenticationFile
  cases hfile : disk.auth.file with
  | none => simp
  | some content =>
      cases hfault : faults.auth with
      | true => simp
      | false =>
          cases hload : lib.safeLoad content with
          | none => simp [hload]
          | some data => by_cases hdict : data.orDict.isDict = true <;> simp [hload, hdict]

/-- A configuration of which the removed keys were taken is valid with the authentication data, or the validation raises. -/
theorem validateConfig_dict (lib : Yaml) (faults : ReadFaults) (disk : Disk) {config : Data.Entries} (h : m.config = .dict config) :
    (∃ auth, loadAuthenticationFile lib faults disk = .ok auth ∧ (config (.str "server".toList)).isSome ∧
      config (.str "authentication".toList) = none ∧ validateSections config auth = .ok () ∧
      validateConfig lib faults disk m = (.ok (), { m with
        config := .dict (Data.assign config "authentication".toList auth), authenticationConfig := auth })) ∨
    ∃ e m', validateConfig lib faults disk m = (.error e, m') ∧ ∀ auth, loadAuthenticationFile lib faults disk = .ok auth →
      (config (.str "server".toList)).isSome → config (.str "authentication".toList) = none → validateSections config auth ≠ .ok () := by
  unfold validateConfig
  rw [h]
  simp only [Data.isNone, Data.has, Bool.false_eq_true, if_false]
  cases hserver : (config (.str "server".toList)).isSome with
  | false => exact .inr ⟨_, _, rfl, fun _ _ h => by cases h⟩
  | true =>
      cases hauth : config (.str "authentication".toList) with
      | some v => exact .inr ⟨_, _, rfl, fun _ _ _ h => by cases h⟩
      | none =>
          cases hload : loadAuthenticationFile lib faults disk with
          | error e => exact .inr ⟨_, _, rfl, fun _ h => by cases h⟩
          | ok auth =>
              cases hsections : validateSections config auth with
              | error e =>
                  refine .inr ⟨e, _, Prod.ext hsections rfl, fun auth' h _ _ => ?_⟩
                  cases h
                  rw [hsections]
                  exact fun h => by cases h
              | ok u => exact .inl ⟨auth, rfl, rfl, rfl, hsections, Prod.ext hsections rfl⟩

/-- What is no dict does not pass. -/
theorem validateConfig_not_dict (lib : Yaml) (faults : ReadFaults) (disk : Disk) (h : m.config.isDict = false) : ∃ e m', validateConfig lib faults disk m = (.error e, m') := by
  unfold validateConfig
  split
  · exact ⟨_, _, rfl⟩
  · split
    · exact ⟨_, _, rfl⟩
    · exact ⟨_, _, rfl⟩
    · dsimp only
      split
      · exact ⟨_, _, rfl⟩
      · exact ⟨_, _, rfl⟩
      · split
        · exact ⟨_, _, rfl⟩
        · split
          · rename_i config hconfig
            rw [hconfig] at h
            cases h
          · exact ⟨_, _, rfl⟩

theorem config_validateConfig (lib : Yaml) (faults : ReadFaults) (disk : Disk) (m m' : Manager π) (h : m.config = m'.config) :
    (validateConfig lib faults disk m).2.config = (validateConfig lib faults disk m').2.config := by
  unfold validateConfig
  rw [h]
  split
  · exact h
  · split
    · exact h
    · exact h
    · dsimp only
      split
      · rfl
      · rfl
      · split
        · rfl
        · split <;> rfl

theorem stripRemovedLocationKeys_isDict (config : Data) : (stripRemovedLocationKeys config).isDict = config.isDict := by
  rw [← isDict_withoutRemovedKeys config, withoutRemovedKeys, stripCommandPorts, isDict_modify]

/-- The file is read as YAML. -/
def Reads (lib : Yaml) (faults : ReadFaults) (disk : Disk) (parsed : Data) : Prop :=
  ∃ content, disk.server.file = some content ∧ faults.server = false ∧ strip content ≠ [] ∧ lib.safeLoad content = some parsed

theorem unparsed_or_reads (lib : Yaml) (faults : ReadFaults) (disk : Disk) : Unparsed lib faults disk ∨ ∃ parsed, Reads lib faults disk parsed := by
  cases hfile : disk.server.file with
  | none => exact .inl fun content h => by cases hfile.symm.trans h
  | some content =>
      by_cases hall : faults.server = false ∧ strip content ≠ [] ∧ ∃ parsed, lib.safeLoad content = some parsed
      · obtain ⟨hfault, hblank, parsed, hparsed⟩ := hall
        exact .inr ⟨parsed, content, hfile, hfault, hblank, hparsed⟩
      · refine .inl fun content' h => ?_
        cases hfile.symm.trans h
        by_contra hnot
        simp only [not_or, Bool.not_eq_true, ← ne_eq, Option.ne_none_iff_exists'] at hnot
        exact hall hnot

theorem Reads.not_unparsed {parsed : Data} (h : Reads lib faults disk parsed) : ¬ Unparsed lib faults disk := by
  obtain ⟨content, hfile, hfault, hblank, hparsed⟩ := h
  intro hunparsed
  rcases hunparsed content hfile with h | h | h
  · cases hfault.symm.trans h
  · exact hblank h
  · cases hparsed.symm.trans h

theorem Reads.unique {parsed parsed' : Data} (h : Reads lib faults disk parsed) (h' : Reads lib faults disk parsed') :
    parsed = parsed' := by
  obtain ⟨content, hfile, -, -, hparsed⟩ := h
  obtain ⟨content', hfile', -, -, hparsed'⟩ := h'
  cases hfile.symm.trans hfile'
  exact Option.some.inj (hparsed.symm.trans hparsed')

theorem accepted_iff : Accepted lib faults disk ↔ ∃ parsed config auth, Reads lib faults disk parsed ∧
    withoutRemovedKeys parsed = .dict config ∧ loadAuthenticationFile lib faults disk = .ok auth ∧ Valid config auth := by
  constructor
  · rintro ⟨content, parsed, config, authContent, data, hserver, hauth, hwithout, hvalid⟩
    exact ⟨parsed, config, data.orDict, ⟨content, hserver⟩, hwithout,
      loadAuthenticationFile_ok.mpr ⟨authContent, data, hauth, hvalid.mapping, rfl⟩, hvalid⟩
  · rintro ⟨parsed, config, auth, ⟨content, hserver⟩, hwithout, hload, hvalid⟩
    obtain ⟨authContent, data, hauth, -, rfl⟩ := loadAuthenticationFile_ok.mp hload
    exact ⟨content, parsed, config, authContent, data, hserver, hauth, hwithout, hvalid⟩

theorem loadConfig_unparsed (h : Unparsed lib faults disk) (m : Manager π) : ∃ e, loadConfig lib faults disk m = (.error e, m) := by
  unfold loadConfig
  cases hfile : disk.server.file with
  | none => exact ⟨_, rfl⟩
  | some content =>
      rcases h content hfile with hfault | hblank | hnone
      · exact ⟨_, if_pos hfault⟩
      · dsimp only
        split
        · exact ⟨_, rfl⟩
        · exact ⟨_, rfl⟩
      · dsimp only
        split
        · exact ⟨_, rfl⟩
        · split
          · exact ⟨_, rfl⟩
          · exact ⟨_, by rw [hnone]⟩

theorem loadConfig_reads {parsed : Data} (h : Reads lib faults disk parsed) (m : Manager π) : loadConfig lib faults disk m =
    match absorbRemovedCommandPortKeys (stripRemovedLocationKeys parsed) with
    | none => (.error .badType, { m with config := stripRemovedLocationKeys parsed })
    | some config =>
        match validateConfig lib faults disk { m with config := config } with
        | (.error e, m) => (.error e, m)
        | (.ok (), m) => (.ok m.config, { m with securityPolicy := none }) := by
  obtain ⟨content, hfile, hfault, hblank, hparsed⟩ := h
  simp only [loadConfig, hfile, hfault, hblank, hparsed, Bool.false_eq_true, if_false] <;> rfl

/-- The configuration that a load leaves does not depend on the one before. -/
theorem config_loadConfig {parsed : Data} (h : Reads lib faults disk parsed) (m m' : Manager π) :
    (loadConfig lib faults disk m).2.config = (loadConfig lib faults disk m').2.config := by
  rw [loadConfig_reads h, loadConfig_reads h]
  cases absorbRemovedCommandPortKeys (stripRemovedLocationKeys parsed) with
  | none => rfl
  | some config =>
      have hsame := config_validateConfig lib faults disk
        { m with config := config } { m' with config := config } rfl
      dsimp only
      generalize validateConfig lib faults disk { m with config := config } = r at hsame ⊢
      generalize validateConfig lib faults disk { m' with config := config } = r' at hsame ⊢
      obtain ⟨_ | _, _⟩ := r <;> obtain ⟨_ | _, _⟩ := r' <;> exact hsame

/-- A configuration that is read is valid, or the load raises. -/
theorem loadConfig_cases {parsed : Data} (h : Reads lib faults disk parsed) (m : Manager π) :
    (∃ config auth, withoutRemovedKeys parsed = .dict config ∧ loadAuthenticationFile lib faults disk = .ok auth ∧ Valid config auth ∧
      loadConfig lib faults disk m = (.ok (.dict (Data.assign config "authentication".toList auth)),
        { config := .dict (Data.assign config "authentication".toList auth), authenticationConfig := auth })) ∨
    (∃ e m', loadConfig lib faults disk m = (.error e, m')) ∧ ¬ Accepted lib faults disk := by
  have hrefused : (∀ config auth, withoutRemovedKeys parsed = .dict config → loadAuthenticationFile lib faults disk = .ok auth →
      ¬ Valid config auth) → ¬ Accepted lib faults disk := by
    intro hnot haccepted
    obtain ⟨parsed', config, auth, hreads, hwithout, hload, hvalid⟩ := accepted_iff.mp haccepted
    cases h.unique hreads
    exact hnot config auth hwithout hload hvalid
  rw [loadConfig_reads h]
  cases hdict : (withoutRemovedKeys parsed).isDict with
  | false =>
      refine .inr ⟨?_, hrefused fun config _ hwithout => by rw [hwithout] at hdict; cases hdict⟩
      cases habsorb : absorbRemovedCommandPortKeys (stripRemovedLocationKeys parsed) with
      | none => exact ⟨_, _, rfl⟩
      | some config =>
          have hconfig : withoutRemovedKeys parsed = config := Option.some.inj (Option.ite_none_right_eq_some.mp habsorb).2
          obtain ⟨e, m', he⟩ := validateConfig_not_dict lib faults disk
            (show ({ m with config := config } : Manager π).config.isDict = false from hconfig ▸ hdict)
          exact ⟨e, m', by simp only [he]⟩
  | true =>
      obtain ⟨config, hwithout⟩ := isDict_iff.mp hdict
      rw [absorbRemovedCommandPortKeys_iff hwithout]
      by_cases hcommands : ((config (.str "command_ports".toList)).getD .none).loopable = true
      · rw [if_pos hcommands]
        rcases validateConfig_dict lib faults disk (show ({ m with config := .dict config } : Manager π).config = .dict config from rfl) with
          ⟨auth, hload, hserver, hexternal, hsections, hvalidate⟩ | ⟨e, m', hvalidate, hnot⟩
        · obtain ⟨hmethod, hserial⟩ := validateSections_ok.mp hsections
          have hmapping : auth.isDict = true := by
            obtain ⟨_, _, _, hmapping, rfl⟩ := loadAuthenticationFile_ok.mp hload
            exact hmapping
          exact .inl ⟨config, auth, hwithout, hload, ⟨hserver, hexternal, hcommands, hmapping, hmethod, hserial⟩,
            by simp only [hvalidate]⟩
        · refine .inr ⟨⟨e, m', by simp only [hvalidate]⟩, hrefused fun config' auth hwithout' hload hvalid => ?_⟩
          cases hwithout.symm.trans hwithout'
          exact hnot auth hload hvalid.server hvalid.external (validateSections_ok.mpr ⟨hvalid.method, hvalid.serial⟩)
      · rw [if_neg hcommands]
        refine .inr ⟨⟨_, _, rfl⟩, hrefused fun config' auth hwithout' _ hvalid => ?_⟩
        cases hwithout.symm.trans hwithout'
        exact hcommands hvalid.commands

/-- Where a load raises what is held stays as it was, whatever it was, exactly if the file was not read as YAML. -/
theorem load_keeps_iff : (∀ (m : Manager π) e m', loadConfig lib faults disk m = (.error e, m') → m' = m) ↔
    Unparsed lib faults disk ∨ Accepted lib faults disk := by
  constructor
  · intro hkeeps
    rcases unparsed_or_reads lib faults disk with hunparsed | ⟨parsed, hreads⟩
    · exact .inl hunparsed
    · by_contra hnot
      have hkept : ∀ m : Manager π, (loadConfig lib faults disk m).2 = m := by
        intro m
        rcases loadConfig_cases hreads m with ⟨config, auth, hwithout, hload, hvalid, -⟩ | ⟨⟨e, m', he⟩, -⟩
        · exact absurd (.inr (accepted_iff.mpr ⟨parsed, config, auth, hreads, hwithout, hload, hvalid⟩)) hnot
        · rw [he]
          exact hkeeps m e m' he
      have hconfigs := config_loadConfig hreads ({ config := .none } : Manager π) { config := .bool true }
      rw [hkept, hkept] at hconfigs
      cases hconfigs
  · rintro (hunparsed | haccepted) m e m' he
    · obtain ⟨e', he'⟩ := loadConfig_unparsed hunparsed m
      cases he'.symm.trans he
      rfl
    · obtain ⟨parsed, -, -, hreads, -⟩ := accepted_iff.mp haccepted
      rcases loadConfig_cases hreads m with ⟨_, _, _, _, _, hok⟩ | ⟨-, hnot⟩
      · cases hok.symm.trans he
      · exact absurd haccepted hnot

/-! ## Saving -/

@[simp] theorem file_backedUp : d.backedUp.file = d.file := by
  unfold Stored.backedUp
  split
  · rfl
  · rfl

/-- A write that comes to its end leaves the whole text. -/
theorem write_of_completes (text : Text) {fault : Option WriteFault} (h : Completes fault d) :
    (writeYamlWithBackup fault text d).1 = true ∧ (writeYamlWithBackup fault text d).2.file = some text := by
  rcases h with rfl | ⟨hnone, left, rfl⟩
  · exact ⟨rfl, rfl⟩
  · simp [writeYamlWithBackup, hnone]

/-- A write that fails leaves the file exactly if it does no harm. -/
theorem write_of_not_completes (text : Text) {fault : Option WriteFault} (h : ¬ Completes fault d) :
    (writeYamlWithBackup fault text d).1 = false ∧
      ((writeYamlWithBackup fault text d).2.file = d.file ↔ Harmless fault text d) := by
  cases fault with
  | none => exact absurd (.inl rfl) h
  | some f =>
      cases f with
      | makedirs => exact ⟨rfl, iff_of_true rfl ⟨h, fun n hn => by cases hn⟩⟩
      | backup left =>
          have hsome : d.file.isSome = true := by
            rw [Option.isSome_iff_ne_none]
            exact fun hnone => h (.inr ⟨hnone, left, rfl⟩)
          have heq : writeYamlWithBackup (some (.backup left)) text d = (false, { d with backup := left }) := if_pos hsome
          rw [heq]
          exact ⟨rfl, iff_of_true rfl ⟨h, fun n hn => by cases hn⟩⟩
      | «open» => exact ⟨rfl, iff_of_true file_backedUp ⟨h, fun n hn => by cases hn⟩⟩
      | dump n =>
          refine ⟨rfl, fun hfile => ⟨h, fun n' hn' => ?_⟩, fun hharmless => (hharmless.2 n rfl).symm⟩
          cases hn'
          exact hfile.symm

section

variable {writes : WriteFaults} {config : Data.Entries} {authentication : Option Data}

/-- A save that fails leaves the files and what is held, exactly if it is safe. -/
theorem save_keeps_iff : ((saveConfig lib writes config authentication disk m).1 = false →
      (saveConfig lib writes config authentication disk m).2.1.server.file = disk.server.file ∧
      (saveConfig lib writes config authentication disk m).2.1.auth.file = disk.auth.file ∧
      (saveConfig lib writes config authentication disk m).2.2 = m) ↔
    SaveSafe lib writes config authentication disk := by
  unfold saveConfig SaveSafe
  dsimp only
  generalize lib.dump (.dict (serverPayload config)) = serverText
  by_cases hserver : Completes writes.server disk.server
  · have hnot : ¬ Harmless writes.server serverText disk.server := fun h => h.1 hserver
    obtain ⟨hdone, hfile⟩ := write_of_completes serverText hserver
    generalize writeYamlWithBackup writes.server serverText disk.server = r at hdone hfile
    obtain ⟨done, server⟩ := r
    cases hdone
    have hserverFile : server.file = some serverText := hfile
    simp only [hnot, hserver, true_and, false_or]
    cases authPayload config authentication with
    | none => simp [hserverFile, eq_comm]
    | some auth =>
        dsimp only
        by_cases hauth : Completes writes.auth disk.auth
        · obtain ⟨hdone', -⟩ := write_of_completes (lib.dump auth) hauth
          generalize writeYamlWithBackup writes.auth (lib.dump auth) disk.auth = r at hdone'
          obtain ⟨done', authFile⟩ := r
          cases hdone'
          simp [hauth]
        · obtain ⟨hdone', hfile'⟩ := write_of_not_completes (lib.dump auth) hauth
          rw [← hfile']
          generalize writeYamlWithBackup writes.auth (lib.dump auth) disk.auth = r at hdone' ⊢
          obtain ⟨done', authFile⟩ := r
          cases hdone'
          simp [hauth, hserverFile, eq_comm]
  · obtain ⟨hdone, hfile⟩ := write_of_not_completes serverText hserver
    rw [← hfile]
    generalize writeYamlWithBackup writes.server serverText disk.server = r at hdone ⊢
    obtain ⟨done, server⟩ := r
    cases hdone
    simp [hserver]

/-- What a save leaves that says that it succeeded. -/
theorem save_inv {disk' : Disk} {m' : Manager π} (h : saveConfig lib writes config authentication disk m = (true, disk', m')) :
    ∃ auth, authPayload config authentication = some auth ∧ disk'.server.file = some (lib.dump (.dict (serverPayload config))) ∧
      disk'.auth.file = some (lib.dump auth) ∧ m'.config = combinedPayload config auth := by
  unfold saveConfig at h
  by_cases hserver : Completes writes.server disk.server
  · obtain ⟨hdone, hfile⟩ := write_of_completes (lib.dump (.dict (serverPayload config))) hserver
    generalize writeYamlWithBackup writes.server (lib.dump (.dict (serverPayload config))) disk.server = r at h hdone hfile
    obtain ⟨done, server⟩ := r
    cases hdone
    dsimp only at h
    cases hpayload : authPayload config authentication with
    | none =>
        rw [hpayload] at h
        cases h
    | some auth =>
        rw [hpayload] at h
        dsimp only at h
        by_cases hauth : Completes writes.auth disk.auth
        · obtain ⟨hdone', hfile'⟩ := write_of_completes (lib.dump auth) hauth
          generalize writeYamlWithBackup writes.auth (lib.dump auth) disk.auth = r at h hdone' hfile'
          obtain ⟨done', authFile⟩ := r
          cases hdone'
          cases h
          exact ⟨auth, rfl, hfile, hfile', rfl⟩
        · obtain ⟨hdone', -⟩ := write_of_not_completes (lib.dump auth) hauth
          generalize writeYamlWithBackup writes.auth (lib.dump auth) disk.auth = r at h hdone'
          obtain ⟨done', authFile⟩ := r
          cases hdone'
          cases h
  · obtain ⟨hdone, -⟩ := write_of_not_completes (lib.dump (.dict (serverPayload config))) hserver
    generalize writeYamlWithBackup writes.server (lib.dump (.dict (serverPayload config))) disk.server = r at h hdone
    obtain ⟨done, server⟩ := r
    cases hdone
    cases h

theorem authentication_not_removed : "authentication".toList ∉ sectionsWithRemovedKeys := by decide

/-- A configuration without the removed keys, of the payload with its authentication data. -/
theorem withoutRemovedKeys_combined {f : Data.Entries} (auth : Data) (h : withoutRemovedKeys (.dict (serverPayload config)) = .dict f) :
    withoutRemovedKeys (combinedPayload config auth) = .dict (Data.assign f "authentication".toList auth) := by
  have hput := withoutRemovedKeys_put authentication_not_removed (.dict (serverPayload config)) auth
  rw [h] at hput
  exact hput

/-- What was saved is loaded again, exactly if it is read back and valid. -/
theorem load_saved_iff {auth : Data} (hserver : disk.server.file = some (lib.dump (.dict (serverPayload config))))
    (hauth : disk.auth.file = some (lib.dump auth)) :
    (∃ m' : Manager π, loadConfig lib {} disk {} = (.ok (withoutRemovedKeys (combinedPayload config auth)), m')) ↔
      ReadsBack lib config auth := by
  obtain ⟨f, hf⟩ := withoutRemovedKeys_dict (serverPayload config)
  rw [withoutRemovedKeys_combined auth hf]
  have hpopped : f (.str "authentication".toList) = none := by
    have hentry := entry_withoutRemovedKeys authentication_not_removed (.dict (serverPayload config))
    rw [hf] at hentry
    exact hentry.trans (Data.pop_self config "authentication".toList)
  constructor
  · rintro ⟨m', hload⟩
    rcases unparsed_or_reads lib {} disk with hunparsed | ⟨parsed, hreads⟩
    · obtain ⟨e, he⟩ := loadConfig_unparsed hunparsed ({} : Manager π)
      cases he.symm.trans hload
    · rcases loadConfig_cases hreads ({} : Manager π) with ⟨g, data, hwithout, hfile, hvalid, hok⟩ | ⟨⟨e, m₂, he⟩, -⟩
      · have hsame : Data.assign g "authentication".toList data = Data.assign f "authentication".toList auth :=
          Data.dict.inj (Except.ok.inj (Prod.mk.inj (hok.symm.trans hload)).1)
        obtain ⟨hdata, hg⟩ := Data.assign_inj hsame hvalid.external hpopped
        subst hdata hg
        obtain ⟨content, hcontent, -, hblank, hparsed⟩ := hreads
        cases hserver.symm.trans hcontent
        obtain ⟨authContent, data', ⟨hauthContent, -, hdata'⟩, -, hor⟩ := loadAuthenticationFile_ok.mp hfile
        cases hauth.symm.trans hauthContent
        exact ⟨parsed, data', g, hblank, hparsed, hdata', hwithout.trans hf.symm, hor, hf, hvalid⟩
      · cases he.symm.trans hload
  · rintro ⟨parsed, data, f', hblank, hparsed, hdata, hwithout, hor, hf', hvalid⟩
    cases hf.symm.trans hf'
    have hreads : Reads lib {} disk parsed := ⟨_, hserver, rfl, hblank, hparsed⟩
    have hload : loadAuthenticationFile lib {} disk = .ok auth :=
      loadAuthenticationFile_ok.mpr ⟨_, data, ⟨hauth, rfl, hdata⟩, hor ▸ hvalid.mapping, hor⟩
    rcases loadConfig_cases hreads ({} : Manager π) with ⟨g, data', hwithout', hload', -, hok⟩ | ⟨-, hnot⟩
    · cases hload.symm.trans hload'
      cases (hwithout.trans hf).symm.trans hwithout'
      exact ⟨_, hok⟩
    · exact absurd (accepted_iff.mpr ⟨parsed, f, auth, hreads, hwithout.trans hf, hload, hvalid⟩) hnot

end

end OpenMux.ConfigManager
