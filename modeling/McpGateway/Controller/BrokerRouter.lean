import McpGateway.Foundation.Go

/-!
# The deployment of the broker and router

The controller owns some flags, environment variables and volumes of the deployment and leaves the
others to the user: it compares what it owns, and an update merges it with what the user added.
-/

namespace McpGateway.Controller

open Go

/-! ## Comparing and merging -/

def managedCommandFlags : List String :=
  ["--mcp-broker-public-address", "--mcp-gateway-private-host", "--mcp-gateway-config",
    "--mcp-check-interval", "--mcp-gateway-public-host", "--mcp-router-key",
    "--enable-url-elicitation", "--log-level"]

def managedVolumeNames : List String := ["config-volume"]

def managedEnvVarNames : List String :=
  ["TRUSTED_HEADER_PUBLIC_KEY", "CACHE_CONNECTION_STRING", "GATEWAY_SIGNING_KEY",
    "OAUTH_RESOURCE_NAME", "OAUTH_RESOURCE", "OAUTH_AUTHORIZATION_SERVERS",
    "OAUTH_BEARER_METHODS_SUPPORTED", "OAUTH_SCOPES_SUPPORTED"]

def managedFlag (arg : String) : Bool := managedCommandFlags.any (hasPrefix arg)

def filterManagedFlags (command : List String) : List String :=
  command.filter fun arg => !hasPrefix arg "--" || managedFlag arg

def userFlag (arg : String) : Bool := hasPrefix arg "--" && !managedFlag arg

def mergeCommand (desired existing : List String) : List String := desired ++ existing.filter userFlag

/-- A named part of a pod. The controller reads the name and compares the rest. -/
structure Named (σ : Type) where
  name : String
  spec : σ
  deriving DecidableEq

abbrev Parts (σ : Type) := List (Named σ)

variable {σ : Type}

def filterManaged (names : List String) (xs : Parts σ) : Parts σ :=
  xs.filter fun x => names.contains x.name

def filterUser (names : List String) (xs : Parts σ) : Parts σ :=
  xs.filter fun x => !names.contains x.name

def mergeManaged (names : List String) (desired existing : Parts σ) : Parts σ :=
  desired ++ filterUser names existing

def filterManagedEnvVars : Parts σ → Parts σ := filterManaged managedEnvVarNames

def mergeEnvVars : Parts σ → Parts σ → Parts σ := mergeManaged managedEnvVarNames

def filterManagedVolumes : Parts σ → Parts σ := filterManaged managedVolumeNames

def mergeVolumes : Parts σ → Parts σ → Parts σ := mergeManaged managedVolumeNames

def filterManagedVolumeMounts : Parts σ → Parts σ := filterManaged managedVolumeNames

def mergeVolumeMounts : Parts σ → Parts σ → Parts σ := mergeManaged managedVolumeNames

structure Container (σ : Type) where
  command : List String
  image : String
  ports : List σ
  env : Parts σ
  volumeMounts : Parts σ
  readinessProbe : Option σ

structure Deployment (σ : Type) where
  containers : List (Container σ)
  volumes : Parts σ

/-- The reason for an update. Its text also prints the two values. -/
inductive Change where
  | image | command | ports | volumeMounts | readinessProbe | volumes | env

def deploymentNeedsUpdate [DecidableEq σ] (desired existing : Deployment σ) : Option Change :=
  match desired.containers, existing.containers with
  | d :: _, e :: _ =>
    if d.image ≠ e.image then some .image
    else if filterManagedFlags d.command ≠ filterManagedFlags e.command then some .command
    else if d.ports ≠ e.ports then some .ports
    else if filterManagedVolumeMounts d.volumeMounts ≠ filterManagedVolumeMounts e.volumeMounts then
      some .volumeMounts
    else if d.readinessProbe ≠ e.readinessProbe then some .readinessProbe
    else if filterManagedVolumes desired.volumes ≠ filterManagedVolumes existing.volumes then
      some .volumes
    else if filterManagedEnvVars d.env ≠ filterManagedEnvVars e.env then some .env
    else none
  | _, _ => none

/-- The container and the deployment as `reconcileBrokerRouter` updates them. -/
def Container.merge (desired existing : Container σ) : Container σ where
  command := mergeCommand desired.command existing.command
  image := desired.image
  ports := desired.ports
  env := mergeEnvVars desired.env existing.env
  volumeMounts := mergeVolumeMounts desired.volumeMounts existing.volumeMounts
  readinessProbe := desired.readinessProbe

@[inherit_doc Container.merge]
def Deployment.merge (desired existing : Deployment σ) : Deployment σ :=
  match desired.containers, existing.containers with
  | d :: _, e :: es => ⟨d.merge e :: es, mergeVolumes desired.volumes existing.volumes⟩
  | _, _ => existing

lemma filterManaged_merge (names : List String) (desired existing : Parts σ) :
    filterManaged names (mergeManaged names desired existing) = filterManaged names desired := by
  simp [filterManaged, mergeManaged, filterUser]

lemma filterManagedFlags_merge (desired existing : List String) :
    filterManagedFlags (mergeCommand desired existing) = filterManagedFlags desired := by
  have hdisjoint (arg : String) : ((!hasPrefix arg "--" || managedFlag arg) && userFlag arg) = false := by
    unfold userFlag
    cases hasPrefix arg "--" <;> simp
  simp [filterManagedFlags, mergeCommand, List.filter_filter, hdisjoint]

lemma merge_needs_no_update [DecidableEq σ] (desired existing : Deployment σ) :
    deploymentNeedsUpdate desired (desired.merge existing) = none := by
  obtain ⟨_ | ⟨d, ds⟩, volumes⟩ := desired
  · rfl
  obtain ⟨_ | ⟨e, es⟩, volumes'⟩ := existing
  · rfl
  simp [deploymentNeedsUpdate, Deployment.merge, Container.merge, filterManagedFlags_merge,
    filterManagedVolumeMounts, mergeVolumeMounts, filterManagedVolumes, mergeVolumes,
    filterManagedEnvVars, mergeEnvVars, filterManaged_merge]

/-! ## What the user added -/

/-- The name of a flag: its argument up to the equals sign. -/
def flagName (arg : String) : String := String.ofList (arg.toList.takeWhile (· != '='))

/-- The arguments of the flags whose names are not managed. `value` says that such a flag came just
before without its value, so that an argument that is not a flag is the value. -/
def userArgs (value : Bool) : List String → List String
  | [] => []
  | arg :: args =>
    if hasPrefix arg "--" then
      if flagName arg ∈ managedCommandFlags then userArgs false args
      else arg :: userArgs (flagName arg = arg) args
    else if value then arg :: userArgs false args
    else userArgs false args

lemma userArgs_sublist (value : Bool) (args : List String) : (userArgs value args).Sublist args := by
  induction args generalizing value with
  | nil => exact .slnil
  | cons arg args ih =>
    rw [userArgs]
    split_ifs
    · exact (ih _).cons _
    · exact (ih _).cons_cons _
    · exact (ih _).cons_cons _
    · exact (ih _).cons _

/-- What an update of a deployment with the first container `e` has to do: nothing is left to change,
and what the user added is still there, in its order. -/
structure Settles [DecidableEq σ] (d e : Container σ) (ds es : List (Container σ))
    (vs us : Parts σ) : Prop where
  done : deploymentNeedsUpdate ⟨d :: ds, vs⟩ (Deployment.merge ⟨d :: ds, vs⟩ ⟨e :: es, us⟩) = none
  flags : ∃ kept, (d.merge e).command = d.command ++ kept ∧ (userArgs false e.command.tail).Sublist kept
  env : (filterUser managedEnvVarNames e.env).Sublist (d.merge e).env
  mounts : (filterUser managedVolumeNames e.volumeMounts).Sublist (d.merge e).volumeMounts
  volumes : (filterUser managedVolumeNames us).Sublist (mergeVolumes vs us)

/-- An update settles a deployment exactly when no argument of a user's flag is a value of its own or
starts with the name of a managed flag. -/
theorem merge_settles_iff [DecidableEq σ] (d e : Container σ) (ds es : List (Container σ))
    (vs us : Parts σ) : Settles d e ds es vs us ↔
      ∀ arg ∈ userArgs false e.command.tail, hasPrefix arg "--" = true ∧ managedFlag arg = false := by
  constructor
  · intro h arg harg
    obtain ⟨kept, heq, hsub⟩ := h.flags
    rw [← List.append_cancel_left heq] at hsub
    simpa [userFlag] using (List.mem_filter.1 (hsub.subset harg)).2
  · intro h
    have hsub := ((userArgs_sublist false _).trans (List.tail_sublist e.command)).filter userFlag
    rw [List.filter_eq_self.2 fun arg harg => by simp [userFlag, h arg harg]] at hsub
    exact ⟨merge_needs_no_update _ _, ⟨_, rfl, hsub⟩, List.sublist_append_right _ _,
      List.sublist_append_right _ _, List.sublist_append_right _ _⟩

/-- What the controller builds by default for the hosts `gw` and `mcp`, with the user's arguments. -/
def built (args : List String) : Container Unit where
  command := ["./mcp_gateway", "--mcp-broker-public-address=0.0.0.0:8080",
    "--mcp-gateway-private-host=gw", "--mcp-gateway-config=/config/config.yaml",
    "--mcp-gateway-public-host=mcp"] ++ args
  image := "ghcr.io/kuadrant/mcp-gateway:latest"
  ports := [(), (), ()]
  env := [⟨"GATEWAY_SIGNING_KEY", ()⟩]
  volumeMounts := [⟨"config-volume", ()⟩]
  readinessProbe := some ()

/-- The user's `--cache-connection-string redis://cache` loses its value. -/
theorem merge_drops_value : ¬ Settles (built []) (built ["--cache-connection-string", "redis://cache"])
    [] [] [⟨"config-volume", ()⟩] [⟨"config-volume", ()⟩] := by
  intro h
  obtain ⟨kept, heq, hsub⟩ := h.flags
  rw [← List.append_cancel_left heq] at hsub
  revert hsub
  decide

end McpGateway.Controller
