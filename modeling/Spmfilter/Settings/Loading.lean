import Spmfilter.Settings.Check

/-!
# The modules of a file

`smf_settings_add_module` opens a module as soon as its line is read: the regular file that its
name is, or else one in `lib_dir`, which is what the lines so far have made of it.

* `modulePath` is the path that `dlopen` is called with.
* `Loading` are the settings with the paths that the modules in the list have been opened from.
* `loadAll_opened` : these depend on the lines for `lib_dir` and `modules` alone.
* `loadAll_modules` : they are what the last line for `modules` finds.
-/

namespace Spmfilter

open CString

/-! ## The path of a module -/

/-- `smf_internal_build_module_path`. -/
def smfInternalBuildModulePath (libdir modname : Bytes) : Bytes :=
  let file :=
    if (ascii "lib").isPrefixOf modname then modname else ascii "lib" ++ modname ++ ascii ".so"
  libdir ++ ascii "/" ++ file

/-- What the reading of a file finds outside it. -/
structure LoadEnv where
  /-- `LIB_DIR` -/
  libDir : Bytes
  /-- `stat` says that this is a regular file. -/
  isRegular : Bytes → Bool
  /-- What memory holds where a string was freed. -/
  freed : StringField → Bytes

/-- The path that `smf_module_create_handle` opens. -/
def modulePath (env : LoadEnv) (libDir : HeapString) (name : Bytes) : Bytes :=
  if env.isRegular name then name
  else smfInternalBuildModulePath ((libDir.text (env.freed .libDir)).getD env.libDir) name

/-! ## Opening modules -/

/-- The settings, and the paths of the modules in their list. -/
structure Loading where
  config : Config
  opened : List Bytes

section Load

variable (env : LoadEnv)

/-- The paths behind a write.  A new list of modules takes the place of the old one, and each of
them is opened. -/
def Write.opens (w : Write) (libDir : HeapString) (opened : List Bytes) : List Bytes :=
  match w with
  | .list .modules names => names.map (modulePath env libDir)
  | _ => opened

def Loading.apply (w : Write) (l : Loading) : Option Loading :=
  (w.apply l.config).map fun c => ⟨c, w.opens env (l.config.strings .libDir) l.opened⟩

def loadAll (l : Loading) (ws : List Write) : Option Loading :=
  ws.foldlM (fun l w => l.apply env w) l

/-- The paths of the modules behind the lines of a file. -/
def fileModules (input : Bytes) : Option (List Bytes) :=
  (loadAll env ⟨smfSettingsNew, []⟩ (fileWrites input)).map Loading.opened

/-- A write that the paths depend on. -/
def Write.loads : Write → Bool
  | string .libDir _ | list .modules _ => true
  | _ => false

/-- `lib_dir` and the paths behind a write that goes through. -/
def openStep (paths : HeapString × List Bytes) (w : Write) : HeapString × List Bytes :=
  (w.follow .libDir paths.1, w.opens env paths.1 paths.2)

variable {env} {l l' : Loading} {w : Write} {ws : List Write}

theorem loadAll_cons (l : Loading) (w : Write) (ws : List Write) :
    loadAll env l (w :: ws) = (l.apply env w).bind fun l => loadAll env l ws := rfl

theorem loadAll_append (l : Loading) (ws more : List Write) :
    loadAll env l (ws ++ more) = (loadAll env l ws).bind fun l => loadAll env l more :=
  List.foldlM_append

/-- The settings are those of the writes. -/
theorem loadAll_config (l : Loading) (ws : List Write) :
    (loadAll env l ws).map Loading.config = settingsCells.run l.config ws := by
  induction ws generalizing l with
  | nil => rfl
  | cons w ws ih =>
    rw [loadAll_cons, settingsCells.run_cons]
    show Option.map _ (((w.apply l.config).map _).bind _) = (w.apply l.config).bind _
    cases w.apply l.config with
    | none => rfl
    | some c => exact ih _

/-- Other writes leave the paths alone. -/
theorem openStep_other (h : w.loads = false) (paths : HeapString × List Bytes) :
    openStep env paths w = paths := by
  cases w with
  | string f val =>
    have hf : f ≠ .libDir := by
      rintro rfl
      cases h
    show (if f = .libDir then _ else paths.1, paths.2) = paths
    rw [if_neg hf]
  | list f names => cases f <;> first | rfl | cases h
  | number f i | smtpCode code text | group key val => rfl

/-- **What the paths depend on**: the lines for `lib_dir` and `modules`. -/
theorem loadAll_opened (h : loadAll env l ws = some l') :
    (l'.config.strings .libDir, l'.opened) =
      (ws.filter Write.loads).foldl (openStep env) (l.config.strings .libDir, l.opened) := by
  induction ws generalizing l with
  | nil =>
    obtain rfl := Option.some.inj h
    rfl
  | cons w ws ih =>
    obtain ⟨u, hu, hrest⟩ := Option.bind_eq_some_iff.mp h
    obtain ⟨c, hc, rfl⟩ := Option.map_eq_some_iff.mp hu
    have hstep : (c.strings .libDir, w.opens env (l.config.strings .libDir) l.opened) =
        openStep env (l.config.strings .libDir, l.opened) w :=
      congrArg (·, _) (Write.apply_follow hc .libDir)
    rw [ih hrest, hstep]
    cases hloads : w.loads with
    | true => rw [List.filter_cons_of_pos hloads, List.foldl_cons]
    | false => rw [List.filter_cons_of_neg (by rw [hloads]; decide), openStep_other hloads]

/-- The paths stay until the next line for the modules. -/
theorem foldl_openStep_kept (hws : ∀ w ∈ ws, w.cell ≠ .list .modules)
    (paths : HeapString × List Bytes) : (ws.foldl (openStep env) paths).2 = paths.2 := by
  induction ws generalizing paths with
  | nil => rfl
  | cons w ws ih =>
    rw [List.forall_mem_cons] at hws
    rw [List.foldl_cons, ih hws.2]
    cases w with
    | list f names => cases f <;> first | rfl | exact absurd rfl hws.1
    | string f val | number f i | smtpCode code text | group key val => rfl

/-- **Which files the modules are opened from**: those that the last line for them finds, with
the `lib_dir` of the lines in front of it. -/
theorem loadAll_modules {before after : List Write} {names : List Bytes}
    (hlast : ∀ w ∈ after, w.cell ≠ .list .modules)
    (h : loadAll env l (before ++ .list .modules names :: after) = some l') :
    l'.opened = names.map
      (modulePath env (before.foldl (Write.follow .libDir) (l.config.strings .libDir))) := by
  rw [loadAll_append] at h
  obtain ⟨u, hu, h⟩ := Option.bind_eq_some_iff.mp h
  rw [loadAll_cons] at h
  obtain ⟨v, hv, hafter⟩ := Option.bind_eq_some_iff.mp h
  obtain ⟨c, -, rfl⟩ := Option.map_eq_some_iff.mp hv
  have hopened := congrArg Prod.snd (loadAll_opened hafter)
  rw [foldl_openStep_kept fun w hw => hlast w (List.mem_filter.mp hw).1] at hopened
  have hdir : u.config.strings .libDir =
      before.foldl (Write.follow .libDir) (l.config.strings .libDir) := by
    refine run_follow ?_ .libDir
    rw [← @loadAll_config env, hu]
    rfl
  rw [← hdir]
  exact hopened

end Load

end Spmfilter
