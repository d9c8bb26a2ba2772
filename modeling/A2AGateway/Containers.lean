import A2AGateway.Http
import A2AGateway.RoutingDecision

/-!
# A container for an agent (`lxc.rs`)

| here | there |
| --- | --- |
| `Vmid.asU64`, `Vmid.cast`   | `serde_json::Value::as_u64`, and the cast of `lxc.rs:110` |
| `LxcClient.list`            | `lxc.rs:77-118` |
| `newVmid`, `LxcClient.spawn` | `lxc.rs:124-169` |
| `LxcClient.start`, `LxcClient.stop` | `lxc.rs:174-219` |

"The new VMID is chosen as `max(existing_vmids) + 1`, minimum 200" (`lxc.rs:123`). What `list` takes for an
existing id is the low half of a number that is written in digits and fits 64 bits, and 0 for everything else.
So an id that is listed as a string, or as `200.0`, is not looked at, and one that ends in 32 ones has no
successor (`spawns_fresh_iff`).
-/

namespace A2AGateway

/-! ## Ids as they are listed -/

/-- The JSON value of a `vmid`. A number is written in digits only, or with a sign, a fraction or an exponent. -/
inductive Vmid
  | digits (n : Nat)
  | number (q : Rat)
  | str (s : String)
  | other

namespace Vmid

/-- `serde_json` keeps a number written in digits as a `u64` if it fits, as a float if not. -/
def asU64 : Vmid → Option Nat
  | digits n => if n < 2 ^ 64 then some n else none
  | _ => none

/-- `vmid.as_u64().unwrap_or(0) as u32`. -/
def cast (v : Vmid) : UInt32 := UInt32.ofNat (v.asU64.getD 0)

/-- The value of a row of decimal digits. -/
def decimal (cs : List Char) : Nat := cs.foldl (fun n c => 10 * n + (c.toNat - '0'.toNat)) 0

/-- The non-negative integer that the value stands for. -/
def denotes : Vmid → Option Nat
  | digits n => some n
  | number q => if q.den = 1 ∧ 0 ≤ q.num then some q.num.toNat else none
  | str s => if s ≠ "" ∧ s.toList.all Char.isDigit = true then some (decimal s.toList) else none
  | other => none

end Vmid

structure LxcContainer where
  vmid : UInt32
  name : String
  status : String
  maxmem : Option UInt64
  cpus : Option F64

/-- An entry of the answer to `list`. -/
structure RawLxc where
  vmid : Vmid
  name : Option String
  status : String
  maxmem : Option UInt64
  cpus : Option F64

def RawLxc.container (r : RawLxc) : LxcContainer where
  vmid := r.vmid.cast
  name := r.name.getD ""
  status := r.status
  maxmem := r.maxmem
  cpus := r.cpus

/-! ## The client -/

structure LxcConfig where
  proxmoxUrl : String
  node : String
  agentTemplate : UInt32

structure SpawnedContainer where
  vmid : UInt32
  name : String
deriving DecidableEq

/-- `max(existing) + 1`, at least 200; `none` if that overflows and the build looks. -/
def newVmid (b : Build) (existing : List LxcContainer) : Option UInt32 :=
  match (existing.map (·.vmid)).max? with
  | none => some (max 200 200)
  | some m => (b.succ m).map (max · 200)

structure LxcClient where
  cfg : LxcConfig
  apiToken : String

namespace LxcClient

section
variable (c : LxcClient)

def authorization : Option String := some s!"PVEAPIToken={c.apiToken}"

def listRequest : HttpRequest := .get s!"{c.cfg.proxmoxUrl}/api2/json/nodes/{c.cfg.node}/lxc" c.authorization

def cloneRequest (vmid : UInt32) (containerName : String) : HttpRequest :=
  .post s!"{c.cfg.proxmoxUrl}/api2/json/nodes/{c.cfg.node}/lxc/{c.cfg.agentTemplate}/clone" c.authorization
    (some (.obj [("newid", .num vmid.toNat), ("hostname", .str containerName), ("full", .bool true)]))

def startRequest (vmid : UInt32) : HttpRequest :=
  .post s!"{c.cfg.proxmoxUrl}/api2/json/nodes/{c.cfg.node}/lxc/{vmid}/status/start" c.authorization none

def stopRequest (vmid : UInt32) : HttpRequest :=
  .post s!"{c.cfg.proxmoxUrl}/api2/json/nodes/{c.cfg.node}/lxc/{vmid}/status/shutdown" c.authorization none

-- Proxmox, and how the body of its answer to `list` is read
variable (server : List HttpRequest → HttpRequest → Except String HttpResponse)
  (parse : HttpResponse → Except String (List RawLxc)) (b : Build)

def list : Prog (Outbox Unit) Err (List LxcContainer) := do
  let resp ← Outbox.exchange server c.listRequest "listing LXC containers" fun status body =>
    s!"Proxmox list error {status}: {body}"
  match parse resp with
  | .error _ => Prog.fail (.msg "parsing list response")
  | .ok raws => return raws.map RawLxc.container

def start (vmid : UInt32) : Prog (Outbox Unit) Err Unit := do
  let _ ← Outbox.exchange server (c.startRequest vmid) s!"starting LXC {vmid}" fun status body =>
    s!"Proxmox start error {status}: {body}"

/-- "Log but don't hard-fail — container may already be stopped". -/
def stop (vmid : UInt32) : Prog (Outbox Unit) Err Unit := do
  let _ ← Outbox.exchangeAny server (c.stopRequest vmid) s!"stopping LXC {vmid}"

def spawn (agentName : String) : Prog (Outbox Unit) Err SpawnedContainer := do
  let existing ← c.list server parse
  match newVmid b existing with
  | none => Prog.fail .panic
  | some vmid =>
    let containerName := s!"a2a-{agentName}"
    let _ ← Outbox.exchange server (c.cloneRequest vmid containerName) "cloning LXC template" fun status body =>
      s!"Proxmox clone error {status}: {body}"
    c.start server vmid
    return ⟨vmid, containerName⟩

/-! ## A fresh id -/

/-- The list that `list` accepts, if it accepts one. -/
def accepted (o : Outbox Unit) : Option (List RawLxc) :=
  match server o.requests c.listRequest with
  | .error _ => none
  | .ok resp => if resp.status.isSuccess then (parse resp).toOption else none

/-- From an accepted list the id is chosen without overflow, and a clone that is asked for gets one of at least
200 that is not in the list. -/
def SpawnsFresh (agentName : String) (o : Outbox Unit) : Prop :=
  ∀ raws, c.accepted server parse o = some raws →
    (∀ m, (raws.map (·.vmid.cast)).max? = some m → (m + 1).toNat = m.toNat + 1) ∧
      ∀ id containerName, c.cloneRequest id containerName ∈
          ((c.spawn server parse b agentName).exec o).2.requests.drop o.requests.length →
        200 ≤ id ∧ ∀ raw ∈ raws, raw.vmid.denotes ≠ some id.toNat

end

end LxcClient

/-- No number that is taken for an id ends in 32 ones, and no value stands for an integer from 200 up that is
above all that is taken for ids, and is 200 or next to one of them. -/
structure VmidsRead (raws : List RawLxc) : Prop where
  low : ∀ raw ∈ raws, ∀ n, raw.vmid.asU64 = some n → n % 2 ^ 32 ≠ 2 ^ 32 - 1
  seen : ∀ raw ∈ raws, ∀ d, raw.vmid.denotes = some d → 200 ≤ d → (∀ other ∈ raws, other.vmid.cast.toNat < d) →
    d ≠ 200 ∧ ∀ other ∈ raws, other.vmid.cast.toNat + 1 ≠ d

/-! ## The choice -/

theorem UInt32.toNat_max (a b : UInt32) : (max a b).toNat = max a.toNat b.toNat := by
  show (if a ≤ b then b else a).toNat = _
  rw [Nat.max_def]
  split <;> rename_i h <;> rw [UInt32.le_iff_toNat_le] at h <;> simp [h]

instance UInt32.lawfulOrderMax : Std.LawfulOrderMax UInt32 where
  max_le_iff a b c := by simp only [UInt32.le_iff_toNat_le, UInt32.toNat_max, Nat.max_le]
  max_eq_or a b := by
    by_cases h : a ≤ b
    · exact .inr (if_pos h)
    · exact .inl (if_neg h)

/-- **Below the largest id the choice is at least 200, above all ids there are, and next to one of them or 200
itself.** -/
theorem newVmid_spec (b : Build) (existing : List LxcContainer) (hlow : ∀ e ∈ existing, e.vmid ≠ 0xFFFFFFFF) :
    ∃ id, newVmid b existing = some id ∧ 200 ≤ id.toNat ∧ (∀ e ∈ existing, e.vmid.toNat < id.toNat) ∧
      (id.toNat = 200 ∨ ∃ e ∈ existing, e.vmid.toNat + 1 = id.toNat) := by
  cases hmax : (existing.map (·.vmid)).max? with
  | none =>
    obtain rfl : existing = [] := by simpa using hmax
    exact ⟨max 200 200, rfl, by simp [UInt32.toNat_max]⟩
  | some m =>
    obtain ⟨hmem, hle⟩ := List.max?_eq_some_iff.1 hmax
    obtain ⟨e, he, rfl⟩ := List.mem_map.1 hmem
    have hall : ∀ e' ∈ existing, e'.vmid.toNat ≤ e.vmid.toNat := fun e' he' =>
      UInt32.le_iff_toNat_le.1 (hle _ (List.mem_map_of_mem he'))
    refine ⟨max (e.vmid + 1) 200, by simp [newVmid, hmax, b.succ_of_ne (hlow e he)], ?_⟩
    rw [UInt32.toNat_max, UInt32.toNat_succ (hlow e he), show (200 : UInt32).toNat = 200 from rfl]
    refine ⟨by omega, fun e' he' => ?_, ?_⟩
    · have := hall e' he'
      omega
    · by_cases h : e.vmid.toNat + 1 ≤ 200
      · exact .inl (by omega)
      · exact .inr ⟨e, he, by omega⟩

theorem Vmid.toNat_cast (v : Vmid) : v.cast.toNat = v.asU64.getD 0 % 2 ^ 32 := UInt32.toNat_ofNat'

/-- An id is the largest if and only if it is a number that ends in 32 ones. -/
theorem Vmid.cast_eq_max {v : Vmid} : v.cast = 0xFFFFFFFF ↔ ∃ n, v.asU64 = some n ∧ n % 2 ^ 32 = 2 ^ 32 - 1 := by
  rw [← UInt32.toNat_inj, toNat_cast]
  cases v.asU64 <;> simp

namespace LxcClient

variable {c : LxcClient} {server : List HttpRequest → HttpRequest → Except String HttpResponse}
  {parse : HttpResponse → Except String (List RawLxc)} {b : Build} {agentName : String} {o : Outbox Unit}
  {raws : List RawLxc}

theorem exec_list_of_accepted (h : c.accepted server parse o = some raws) :
    (c.list server parse).exec o = (.ok (raws.map RawLxc.container),
      { o with requests := o.requests ++ [c.listRequest] }) := by
  unfold accepted at h
  split at h
  · cases h
  · rename_i resp hresp
    split at h
    · rename_i hsuccess
      cases hparse : parse resp with
      | error e => simp [hparse, Except.toOption] at h
      | ok raws' =>
        obtain rfl : raws' = raws := by simpa [hparse, Except.toOption] using h
        simp [list, Prog.exec_bind, hresp, Outbox.received, hsuccess, hparse]
    · cases h

theorem cloneRequest_inj {id id' : UInt32} {name name' : String} :
    c.cloneRequest id name = c.cloneRequest id' name' ↔ id = id' ∧ name = name' := by
  simp [cloneRequest, UInt32.toNat_inj]

variable (c server) in
theorem requests_start (vmid : UInt32) (o : Outbox Unit) :
    ((c.start server vmid).exec o).2.requests = o.requests ++ [c.startRequest vmid] := by
  rw [start, Prog.bind_eq, Prog.pure_eq, Prog.exec_bind_ret_state, Outbox.exec_exchange]

variable (b agentName) in
/-- After an accepted list the id that is chosen is cloned to, and started if that went well. -/
theorem requests_spawn (h : c.accepted server parse o = some raws) :
    ∃ started, (∀ r ∈ started, ∃ vmid, r = c.startRequest vmid) ∧
      ((c.spawn server parse b agentName).exec o).2.requests = o.requests ++ c.listRequest ::
        ((newVmid b (raws.map RawLxc.container)).toList.map (c.cloneRequest · s!"a2a-{agentName}") ++ started) := by
  rw [spawn, Prog.bind_eq, Prog.exec_bind_of_ok (exec_list_of_accepted h)]
  cases newVmid b (raws.map RawLxc.container) with
  | none => exact ⟨[], by simp, rfl⟩
  | some vmid =>
    simp only [Prog.bind_eq, Prog.pure_eq]
    rw [Prog.exec_bind, Outbox.exec_exchange]
    generalize Outbox.received _ _ _ = cloned
    cases cloned with
    | error e => exact ⟨[], by simp, by simp⟩
    | ok resp =>
      refine ⟨[c.startRequest vmid], by simp, ?_⟩
      rw [Prog.exec_bind_ret_state, requests_start]
      simp

/-- After an accepted list a clone is asked for exactly if there is an id, and it is of this id. -/
theorem clone_issued_iff (h : c.accepted server parse o = some raws) {id : UInt32} {name : String} :
    c.cloneRequest id name ∈ ((c.spawn server parse b agentName).exec o).2.requests.drop o.requests.length ↔
      newVmid b (raws.map RawLxc.container) = some id ∧ name = s!"a2a-{agentName}" := by
  obtain ⟨started, hstarted, hrequests⟩ := requests_spawn b agentName h
  have hlist : c.cloneRequest id name ≠ c.listRequest := by simp [cloneRequest, listRequest]
  have hstart : c.cloneRequest id name ∉ started := by
    intro hmem
    obtain ⟨vmid, hvmid⟩ := hstarted _ hmem
    simp [cloneRequest, startRequest] at hvmid
  rw [hrequests, List.drop_left]
  simp [hlist, hstart, cloneRequest_inj, eq_comm]

theorem spawns_fresh_of (h : ∀ raws, c.accepted server parse o = some raws → VmidsRead raws) :
    c.SpawnsFresh server parse b agentName o := by
  intro raws hraws
  obtain ⟨hlow, hseen⟩ := h raws hraws
  have hne : ∀ raw ∈ raws, raw.vmid.cast ≠ 0xFFFFFFFF := by
    intro raw hraw hmax
    obtain ⟨n, hn, hones⟩ := Vmid.cast_eq_max.1 hmax
    exact hlow raw hraw n hn hones
  refine ⟨fun m hm => ?_, fun id name hclone => ?_⟩
  · obtain ⟨raw, hraw, rfl⟩ := List.mem_map.1 (List.max?_mem hm)
    exact UInt32.toNat_succ (hne raw hraw)
  · obtain ⟨hid, -⟩ := (clone_issued_iff hraws).1 hclone
    obtain ⟨id', hid', hmin, habove, hnext⟩ := newVmid_spec b (raws.map RawLxc.container) (by
      simpa [RawLxc.container] using hne)
    obtain rfl : id' = id := by simpa [hid'] using hid
    refine ⟨UInt32.le_iff_toNat_le.2 hmin, fun raw hraw hdenotes => ?_⟩
    obtain ⟨h200, hsucc⟩ := hseen raw hraw _ hdenotes hmin (by simpa [RawLxc.container] using habove)
    rcases hnext with h | h
    · exact h200 h
    · obtain ⟨e, he, hnext⟩ := h
      obtain ⟨other, hother, rfl⟩ := List.mem_map.1 he
      exact hsucc other hother hnext

theorem vmidsRead_of (h : c.SpawnsFresh server parse b agentName o) (hraws : c.accepted server parse o = some raws) :
    VmidsRead raws := by
  obtain ⟨hsucc, hfresh⟩ := h raws hraws
  have hne : ∀ raw ∈ raws, raw.vmid.cast ≠ 0xFFFFFFFF := by
    intro raw hraw hmax
    have hm : (raws.map (·.vmid.cast)).max? = some 0xFFFFFFFF :=
      List.max?_eq_some_iff.2 ⟨List.mem_map.2 ⟨raw, hraw, hmax⟩, fun _ _ =>
        UInt32.le_iff_toNat_le.2 (Nat.le_of_lt_succ (UInt32.toNat_lt _))⟩
    exact absurd (hsucc _ hm) (by decide)
  obtain ⟨id, hid, hmin, habove, hnext⟩ := newVmid_spec b (raws.map RawLxc.container) (by
    simpa [RawLxc.container] using hne)
  obtain ⟨-, hdenotes⟩ := hfresh id _ ((clone_issued_iff hraws).2 ⟨hid, rfl⟩)
  constructor
  case low => exact fun raw hraw n hn hones => hne raw hraw (Vmid.cast_eq_max.2 ⟨n, hn, hones⟩)
  case seen =>
    intro raw hraw d hd h200 hall
    have hd_ne : d ≠ id.toNat := fun he => hdenotes raw hraw (he ▸ hd)
    have hall' : ∀ e ∈ raws.map RawLxc.container, e.vmid.toNat < d := by simpa [RawLxc.container] using hall
    refine ⟨?_, fun other hother hsucc => ?_⟩
    · rintro rfl
      rcases hnext with h | ⟨e, he, hnext⟩
      · exact hd_ne h.symm
      · have := hall' e he
        omega
    · have hlt : other.vmid.cast.toNat < id.toNat := habove _ (List.mem_map_of_mem hother)
      rcases hnext with h | ⟨e, he, hnext⟩
      · omega
      · have := hall' e he
        omega

/-- **A spawned container gets a fresh id if and only if no listed number ends in 32 ones and no listed value
that is not looked at stands for the id that is next.** -/
theorem spawns_fresh_iff : c.SpawnsFresh server parse b agentName o ↔
    ∀ raws, c.accepted server parse o = some raws → VmidsRead raws :=
  ⟨fun h _ hraws => vmidsRead_of h hraws, spawns_fresh_of⟩

/-- Numbers in digits, below `u32::MAX`, are read as they are. -/
theorem vmidsRead_of_digits (h : ∀ raw ∈ raws, ∃ n < 2 ^ 32 - 1, raw.vmid = .digits n) : VmidsRead raws := by
  have hread : ∀ raw ∈ raws, ∃ n < 2 ^ 32 - 1, raw.vmid.asU64 = some n ∧ raw.vmid.denotes = some n ∧
      raw.vmid.cast.toNat = n := by
    intro raw hraw
    obtain ⟨n, hn, hdigits⟩ := h raw hraw
    have hfits : n < 2 ^ 64 := by omega
    refine ⟨n, hn, by rw [hdigits]; exact if_pos hfits, by simp [hdigits, Vmid.denotes], ?_⟩
    rw [Vmid.toNat_cast, hdigits]
    simp only [Vmid.asU64, if_pos hfits, Option.getD_some]
    omega
  constructor
  case low =>
    intro raw hraw n hn
    obtain ⟨m, hm, hasU64, -, -⟩ := hread raw hraw
    obtain rfl : m = n := by simpa [hasU64] using hn
    omega
  case seen =>
    intro raw hraw d hd _ hall
    obtain ⟨m, -, -, hdenotes, hcast⟩ := hread raw hraw
    obtain rfl : m = d := by simpa [hdenotes] using hd
    have := hall raw hraw
    omega

end LxcClient

/-! ## Lists that lead to an id in use -/

namespace DemoContainers

def client : LxcClient := ⟨⟨"https://proxmox.example.com:8006", "proxmox", 9001⟩, "root@pam!test"⟩

def server (_ : List HttpRequest) (_ : HttpRequest) : Except String HttpResponse := .ok ⟨.ok, .ok [], .ok ""⟩

def container (vmid : Vmid) : RawLxc := ⟨vmid, some "a2a-research", "running", none, none⟩

/-- Container 200 is listed as a string. -/
def asString : List RawLxc := [container (.str "200")]

/-- Beside container 200 there is one with the largest id. -/
def atTop : List RawLxc := [container (.digits 200), container (.digits 4294967295)]

end DemoContainers

/-- **Container 200 is cloned over: as the first id where it is listed as a string, as the successor of
`u32::MAX` in a release build (a debug build panics).** -/
theorem spawn_takes_listed_id :
    (∀ b, ¬ DemoContainers.client.SpawnsFresh DemoContainers.server (fun _ => .ok DemoContainers.asString) b "writer"
        ⟨(), []⟩) ∧
      ∀ b, ¬ DemoContainers.client.SpawnsFresh DemoContainers.server (fun _ => .ok DemoContainers.atTop) b "writer"
        ⟨(), []⟩ := by
  refine ⟨fun b h => ?_, fun b h => ?_⟩
  · have hread : VmidsRead DemoContainers.asString := LxcClient.vmidsRead_of h rfl
    exact (hread.seen _ (List.mem_singleton.2 rfl) 200 (by decide +kernel) (le_refl _) (by decide +kernel)).1 rfl
  · have hread : VmidsRead DemoContainers.atTop := LxcClient.vmidsRead_of h rfl
    exact hread.low (DemoContainers.container (.digits 4294967295)) (by simp [DemoContainers.atTop]) 4294967295 rfl rfl

end A2AGateway
