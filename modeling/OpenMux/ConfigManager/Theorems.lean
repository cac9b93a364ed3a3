import OpenMux.ConfigManager.Lemmas.Manager

/-!
# Loading and saving the configuration
-/

namespace OpenMux.ConfigManager

open Py

/-- A load that raises leaves the manager, whatever it holds, exactly if the file is not read as YAML or what is read is taken; a save that
fails leaves the files and the manager exactly if it fails before its first file is opened or has changed nothing; and what was saved is
loaded again exactly if YAML reads it back and it passes the checks of a load. -/
theorem config_all_or_nothing {π : Type} (lib : Yaml) :
    (∀ faults disk, (∀ (m : Manager π) e m', loadConfig lib faults disk m = (.error e, m') → m' = m) ↔
      Unparsed lib faults disk ∨ Accepted lib faults disk) ∧
    (∀ writes config authentication disk (m : Manager π),
      ((saveConfig lib writes config authentication disk m).1 = false →
        (saveConfig lib writes config authentication disk m).2.1.server.file = disk.server.file ∧
        (saveConfig lib writes config authentication disk m).2.1.auth.file = disk.auth.file ∧
        (saveConfig lib writes config authentication disk m).2.2 = m) ↔
      SaveSafe lib writes config authentication disk) ∧
    ∀ writes config authentication disk (m : Manager π) disk' m',
      saveConfig lib writes config authentication disk m = (true, disk', m') →
      ((∃ fresh : Manager π, loadConfig lib {} disk' {} = (.ok (withoutRemovedKeys m'.config), fresh)) ↔
        ∃ auth, authPayload config authentication = some auth ∧ ReadsBack lib config auth) := by
  refine ⟨fun faults disk => load_keeps_iff, fun writes config authentication disk m => save_keeps_iff, ?_⟩
  intro writes config authentication disk m disk' m' hsave
  obtain ⟨auth, hpayload, hserver, hauth, hconfig⟩ := save_inv hsave
  rw [hconfig, load_saved_iff hserver hauth, hpayload]
  constructor
  · intro hreads
    exact ⟨auth, rfl, hreads⟩
  · rintro ⟨auth', hsome, hreads⟩
    cases hsome
    exact hreads

/-- A dict with one entry, an empty dict. -/
def single (k : String) : Data.Entries := fun k' => if k' = .str k.toList then some (.dict fun _ => none) else none

def serverText : Text := "server: \x7b\x7d\n".toList

def usersText : Text := "users: \x7b\x7d\n".toList

def emptyText : Text := "\x7b\x7d\n".toList

/-- YAML, of these three documents. -/
def sampleYaml : Yaml where
  safeLoad t :=
    if t = serverText then some (.dict (single "server"))
    else if t = usersText then some (.dict (single "users"))
    else if t = emptyText then some (.dict fun _ => none)
    else none
  dump v :=
    if v.has "server".toList = some true then serverText
    else if v.has "users".toList = some true then usersText
    else emptyText

theorem serverPayload_server : serverPayload (single "server") = single "server" := by
  funext k
  by_cases hk : k = .str "authentication".toList
  · subst hk
    exact (Data.pop_self _ _).trans (if_neg (by decide)).symm
  · exact Data.pop_ne hk

theorem config_all_or_nothing_saved : ∃ (disk : Disk) (m fresh : Manager Unit),
    saveConfig sampleYaml {} (single "server") (some (.dict (single "users"))) {} {} = (true, disk, m) ∧
      disk.server.file = some serverText ∧ loadConfig sampleYaml {} disk {} = (.ok (withoutRemovedKeys m.config), fresh) := by
  have hreads : ReadsBack sampleYaml (single "server") (.dict (single "users")) := by
    refine ⟨.dict (single "server"), .dict (single "users"), _, by decide +kernel, ?_, rfl, ?_, rfl, rfl, ?_⟩
    · rw [serverPayload_server]
      rfl
    · rw [serverPayload_server]
    · refine ⟨by decide +kernel, by decide +kernel, by decide +kernel, rfl, ⟨"users".toList, by decide, by decide +kernel⟩, fun v hv => ?_⟩
      cases hv
  obtain ⟨fresh, hfresh⟩ := ((@config_all_or_nothing Unit sampleYaml).2.2 {} (single "server") (some (.dict (single "users")))
    {} {} _ _ rfl).mpr ⟨.dict (single "users"), rfl, hreads⟩
  exact ⟨_, _, fresh, rfl, by decide +kernel, hfresh⟩

/-- A file without the section `server` replaces the configuration that is held, and the load raises; a save without authentication data
fails after the first file was written; and a save of a configuration that no load takes succeeds. -/
theorem config_all_or_nothing_fails :
    (∃ m : Manager Unit, loadConfig sampleYaml {} { server := ⟨some emptyText, none⟩ } { config := .dict (single "server") } =
        (.error .missingSection, m) ∧ m.config.has "server".toList = some false) ∧
    (∃ disk, saveConfig sampleYaml {} (single "server") none { server := ⟨some emptyText, none⟩ } ({} : Manager Unit) = (false, disk, {}) ∧
        disk.server.file = some serverText) ∧
    ∃ (disk : Disk) (m fresh : Manager Unit),
      saveConfig sampleYaml {} (fun _ => none) (some (.dict (single "users"))) {} {} = (true, disk, m) ∧
        loadConfig sampleYaml {} disk {} = (.error .missingSection, fresh) := by
  exact ⟨⟨_, rfl, rfl⟩, ⟨_, rfl, by decide +kernel⟩, ⟨_, _, _, rfl, rfl⟩⟩

end OpenMux.ConfigManager
