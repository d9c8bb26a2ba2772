import A2AGateway.Runs

/-!
# Several gateways

Each gateway has a `World` of its own. A round of one against another runs on both: the coordinator
on its own world, and the peer's handlers on the peer's.
-/

namespace A2AGateway

open PeerSync

/-- The gateways by name. -/
abbrev Net := String → World

namespace Net

/-- One gateway of the net. -/
def at_ (name : String) : Prog.Focus Net World where
  get n := n name
  set w n := Function.update n name w
  get_set _ _ := Function.update_self _ _ _
  set_get _ := Function.update_eq_self _ _
  set_set _ _ _ := Function.update_idem _ _ _

theorem at_get (name : String) (n : Net) : (at_ name).get n = n name := rfl

theorem at_set_self (name : String) (w : World) (n : Net) : (at_ name).set w n name = w :=
  Function.update_self _ _ _

theorem at_set_of_ne {name g : String} (hg : g ≠ name) (w : World) (n : Net) : (at_ name).set w n g = n g :=
  Function.update_of_ne hg _ _

/-- Every gateway goes along `T`. -/
def Each (T : World → World → Prop) (n n' : Net) : Prop := ∀ g, T (n g) (n' g)

section
variable {T : World → World → Prop}

theorem Each.refl (h₀ : ∀ w, T w w) (n : Net) : Each T n n := fun _ => h₀ _

theorem Each.trans (ht : ∀ a b c, T a b → T b c → T a c) (n n' n'' : Net) (h : Each T n n') (h' : Each T n' n'') :
    Each T n n'' :=
  fun g => ht _ _ _ (h g) (h' g)

/-- If one gateway does, and nothing else happens, all do. -/
theorem each_of_at (h₀ : ∀ w, T w w) {name : String} (n : Net) (w : World) (h : T ((at_ name).get n) w) :
    Each T n ((at_ name).set w n) := by
  intro g
  by_cases hg : g = name
  · subst hg
    rw [at_set_self]
    exact h
  · rw [at_set_of_ne hg]
    exact h₀ _

end

/-- Running a program on one gateway leaves the others alone. -/
theorem exec_at {ε α : Type} {name : String} {p : Prog World ε α} {n n' : Net} {r : Except ε α}
    (h : (p.within (at_ name)).exec n = (r, n')) :
    p.exec (n name) = (r, n' name) ∧ ∀ g, g ≠ name → n' g = n g := by
  rw [Prog.exec_within] at h
  cases h
  exact ⟨by rw [at_set_self]; rfl, fun g hg => at_set_of_ne hg _ _⟩

end Net

/-! ## Rounds -/

namespace Gateway

def handler (g : Gateway) : PeerHandler := ⟨g.name, g.auth⟩

/-- The client that `b` uses for the peer, which is the gateway `a`. -/
def client (b a : Gateway) (peer : PeerConfig) : PeerClient Net :=
  ⟨.serving a.handler (Net.at_ a.name), b.auth, peer.name⟩

variable [Sha256] [HmacSha256]

/-- A round of `b` for a project of the gateway `a`. -/
def round (b a : Gateway) (peer : PeerConfig) (remote : RemoteProject) : Prog Net Err Unit :=
  PeerSync.syncProject (Net.at_ b.name) (b.client a peer) peer remote b.secret

/-- **As shipped the round of a project that has a local copy ends at its first statement and moves nothing.** -/
theorem exec_round_shipped {b a : Gateway} {peer : PeerConfig} {remote : RemoteProject} {n : Net} {p : Project}
    (hship : (n b.name).AsShipped) (hp : Projects.byName (n b.name).db remote.projectName = some p) :
    ∃ n', (b.round a peer remote).exec n = (.error (.msg "get project by name"), n') ∧ Net.Each SameStored n n' :=
  ⟨_, exec_syncProject_shipped (L := Net.at_ b.name) hship hp, Net.each_of_at .refl n _ rfl⟩

end Gateway

/-! ## Answers of an honest peer -/

section
variable {b a : Gateway} {peer : PeerConfig} {n n' : Net}

/-- Whatever a round asks, its peer stores what it stored. -/
theorem moves_client_serving (b a : Gateway) (peer : PeerConfig) {T : World → World → Prop} (h₀ : ∀ w, T w w)
    (hT : ∀ w w', SameStored w w' → T w w') : AnswersMove (b.client a peer).inner (Net.Each T) :=
  moves_serving a.handler fun n w h => Net.each_of_at h₀ n w (hT _ _ h)

/-- A program that goes along `T` on every gateway ends along `T`. -/
theorem each_of_exec {ε α : Type} {p : Prog Net ε α} {r : Except ε α} {T : World → World → Prop}
    (h₀ : ∀ w, T w w) (ht : ∀ a b c, T a b → T b c → T a c) (hp : p.Moves (Net.Each T))
    (h : p.exec n = (r, n')) : Net.Each T n n' := by
  have hmove := hp.exec (Net.Each.refl h₀) (Net.Each.trans ht) n
  rwa [h] at hmove

/-- Making a token changes nothing. -/
theorem exec_jwt (c : PeerClient Net) (name scope : String) (n : Net) :
    (c.jwt (Net.at_ name) scope).exec n =
      (.ok ((c.auth.issue c.peerName scope (n name).now).toOption.getD ""), n) := by
  rw [PeerClient.jwt, Prog.exec_within, Prog.exec_look, Prog.Focus.set_get]
  rfl

/-- The snapshot that comes back is the peer's. -/
theorem exec_fetchSnapshot_serving {projectId snapId : String} {resp : FetchSnapshotResponse}
    (h : ((b.client a peer).fetchSnapshot (Net.at_ b.name) projectId snapId).exec n = (.ok resp, n'))
    (hok : resp.error = "") :
    (∃ snap, FileSync.snapshotRow (n a.name).db snapId = some snap ∧
      resp = PeerHandler.snapshotAnswer (n a.name).db snap) ∧ Net.Each SameStored n n' := by
  refine ⟨?_, each_of_exec .refl (fun _ _ _ => .trans) (moves_client_fetchSnapshot (Net.Each.refl .refl)
    (moves_client_serving b a peer .refl fun _ _ => id) _ _) h⟩
  simp only [PeerClient.fetchSnapshot, Prog.bind_eq] at h
  rw [Prog.exec_bind_of_ok (exec_jwt _ _ _ n)] at h
  have hw := Prog.exec_mapErr_ok.1 h
  simp only [Gateway.client, Peer.serving, Prog.exec_within] at hw
  have hrun : ((a.handler.fetchSnapshot _).exec (n a.name)).1 = .ok resp := congrArg Prod.fst hw
  rcases PeerHandler.exec_fetchSnapshot_ok (Prog.exec_eq_of_fst hrun) with ⟨snap, hsnap, hresp⟩ | ⟨-, hresp⟩
  · exact ⟨snap, hsnap, hresp⟩
  · rw [hresp] at hok
    exact absurd hok (by simp)

/-- The object that comes back is the peer's file. -/
theorem exec_fetchObject_serving {i : Nat} {hash : String} {data : Bytes}
    (h : ((b.client a peer).fetchObject (Net.at_ b.name) i hash).exec n = (.ok data, n')) :
    ObjectStore.objectBytes (n a.name).disk hash = some data ∧ Net.Each SameStored n n' := by
  refine ⟨?_, each_of_exec .refl (fun _ _ _ => .trans) (moves_client_fetchObject (Net.Each.refl .refl)
    (moves_client_serving b a peer .refl fun _ _ => id) i hash) h⟩
  simp only [PeerClient.fetchObject, Prog.bind_eq] at h
  rw [Prog.exec_bind_of_ok (exec_jwt _ _ _ n)] at h
  obtain ⟨r, n₁, e₁, h⟩ := Prog.exec_bind_ok.1 h
  have hw := Prog.exec_mapErr_ok.1 e₁
  simp only [Gateway.client, Peer.serving, Prog.exec_within] at hw
  have hrun : ((a.handler.fetchObject _).exec (n a.name)).1 = .ok r := congrArg Prod.fst hw
  rcases PeerHandler.exec_fetchObject_ok (Prog.exec_eq_of_fst hrun) with ⟨data', hdata, hr⟩ | hr
  · subst hr
    rw [if_pos rfl] at h
    cases h
    exact hdata
  · subst hr
    rw [if_neg (by simp)] at h
    cases h

end

/-! ## A sample net

`gw-a` and `gw-b` each have a project `demo`, and the same file in its folder. -/

section demo

/-- Tokens that every gateway takes. -/
def demoAuth (name : String) : JwtAuth where
  issuer := name
  encode _ := some "token"
  decode _ token := if token = "token" then some ⟨name, "*", 4600, 1000, "sync"⟩ else none

def demoA : Gateway := ⟨"gw-a", asBytes "secret", demoAuth "gw-a"⟩

def demoB : Gateway := ⟨"gw-b", asBytes "secret", demoAuth "gw-b"⟩

def demoIdB : Uuid := ⟨"00000000-0000-4000-8000-000000000002", Uuid.hex_two⟩

def demoSetupB : List Event :=
  [demoFolder "1" 200 1000,
   .call (.createProject demoIdB "demo" "https://x.com" "" "gw-a" "gw-a" demoId.text),
   .call (.setFolderPath demoIdB.text "/p")]

/-- The net after these events on each of the two. -/
def demoNet [Sha256] [HmacSha256] (eventsA eventsB : List Event) (engine : Engine) : Net := fun name =>
  if name = "gw-a" then replay demoA eventsA engine
  else if name = "gw-b" then replay demoB eventsB engine
  else .fresh engine

/-- The project of `gw-a` as it lists it. -/
def demoListed (snapshotId : String) : RemoteProject where
  projectId := demoId.text
  projectName := "demo"
  snapshotId := snapshotId
  gatewayName := "gw-a"

end demo

end A2AGateway
