import A2AGateway.PeerSync

/-!
# Runs of one gateway

A run starts on an empty database and takes one call after the other, each to its end; a call
that the environment cuts short (`World.faults`) keeps the statements it has made. Between calls
the folders, the clock and what will fail next change freely.
-/

namespace A2AGateway

/-- A gateway's name, its JWT secret and the tokens made with it. -/
structure Gateway where
  name : String
  secret : Bytes
  auth : JwtAuth

/-- The calls that write to the store of a gateway. In `sync` the peer answers as it likes. -/
inductive Call
  | createProject (id : Uuid) (name repoUrl description originGateway peerGateway peerProjectId : String)
  | setFolderPath (id path : String)
  | setFileGlob (id glob : String)
  | append (id : Uuid) (projectId agentName : String) (entryType : EntryType) (content : String)
      (todoId : Option Int)
  | scan (projectId : String)
  | sync (peer : PeerConfig) (remote : RemoteProject) (answers : Answers)

variable [Sha256] [HmacSha256]

/-- A round of `sync_project` on the gateway alone. -/
def Gateway.syncProject (g : Gateway) (peer : PeerConfig) (remote : RemoteProject) (answers : Answers) :
    Gw Unit :=
  PeerSync.syncProject .whole (PeerSync.clientOf g.auth peer answers) peer remote g.secret

def Call.prog (g : Gateway) : Call → Gw Unit
  | .createProject id name repoUrl description origin peer peerId => do
    let _ ← Projects.create id name repoUrl description origin peer peerId
    return ()
  | .setFolderPath id path => Projects.setFolderPath id path
  | .setFileGlob id glob => Projects.setFileGlob id glob
  | .append id projectId agent entryType content todoId => do
    let _ ← TaskLog.append g.secret id projectId g.name agent entryType content todoId
    return ()
  | .scan projectId => do
    let _ ← FileSync.scanAndSnapshot g.name projectId
    return ()
  | .sync peer remote answers => g.syncProject peer remote answers

inductive Event
  | call (c : Call)
  | outside (folders : String → Option Listing) (canonical : String → Option String) (now : F64)
      (faults : List (Option Nat))

def Event.apply (g : Gateway) (w : World) : Event → World
  | .call c => ((c.prog g).exec w).2
  | .outside folders canonical now faults => { w with folders, canonical, now, faults }

def replay (g : Gateway) (events : List Event) (engine : Engine := .shipped) : World :=
  events.foldl (Event.apply g) (.fresh engine)

def Reachable (g : Gateway) (w : World) : Prop := ∃ events engine, replay g events engine = w

/-! ## A sample gateway

The project `demo` of `gw-a` has the folder `/p` with the one file `a.txt`. -/

/-- SHA-256 of two contents of `a.txt` and of transcripts that go with them. -/
@[reducible] def demoSha256 : Sha256 := .recorded
  [("1", "6b86b273ff34fce19d6b804eff5a3f5747ada4eaa22f1d49c01e52ddb7875b4b"),
   ("2", "d4735e3a265e16eee03f59718b9b5d03019c07d8b6c51f90da3a666eec13ab35"),
   ("F|a.txt|6b86b273ff34fce19d6b804eff5a3f5747ada4eaa22f1d49c01e52ddb7875b4b|1|644|100",
    "6513fae37969fbb7a431e3d0f7327396700eafc6ffa8b07050ce26ca9ea0518d"),
   ("F|a.txt|d4735e3a265e16eee03f59718b9b5d03019c07d8b6c51f90da3a666eec13ab35|1|644|200",
    "beb0cba7ddbf2f4a5d8e49822791e23ffbd47289609d0868d51a2e0c3a1bc55c"),
   ("F|a.txt|6b86b273ff34fce19d6b804eff5a3f5747ada4eaa22f1d49c01e52ddb7875b4b|1|644|200",
    "6f94d63e9fe1fdfd47415eda427325d9280831f640c5bb4ec25fa5fa3154d453")]
  (by decide +kernel)

/-- The two contents' hashes, as object names. -/
def demoObject₁ : String := "6b86b273ff34fce19d6b804eff5a3f5747ada4eaa22f1d49c01e52ddb7875b4b"

/-- The two transcripts' hashes, as snapshot ids. -/
def demoSnapshot₁ : String := "6513fae37969fbb7a431e3d0f7327396700eafc6ffa8b07050ce26ca9ea0518d"

def demoSnapshot₂ : String := "beb0cba7ddbf2f4a5d8e49822791e23ffbd47289609d0868d51a2e0c3a1bc55c"

def demoId : Uuid := ⟨"00000000-0000-4000-8000-000000000001", Uuid.hex_one⟩

def demoGateway : Gateway := ⟨"gw-a", asBytes "secret", ⟨"gw-a", fun _ => some "token", fun _ _ => none⟩⟩

/-- The environment at time `now`, when the folder `/p` holds the file `a.txt`. -/
def demoFolder (content : String) (mtime : Nat) (now : Rat) : Event :=
  .outside (fun path => if path = "/p" then some (.file "a.txt" (asBytes content) mtime .done) else none)
    (fun path => if path = "/p" then some "/p" else none) (.fin now) []

/-- The project `demo` is created and given the folder `/p`. -/
def demoSetup : List Event :=
  [demoFolder "1" 100 1000,
   .call (.createProject demoId "demo" "https://x.com" "" "gw-a" "" ""),
   .call (.setFolderPath demoId.text "/p")]

omit [Sha256] [HmacSha256] in
/-- The project is there, and there is no snapshot yet. -/
theorem demo_set_up : letI := demoSha256; letI := HmacSha256.recorded []
    (replay demoGateway demoSetup .widening).Legible ∧
      (Projects.byName (replay demoGateway demoSetup .widening).db "demo").map (·.id) = some demoId.text ∧
      (replay demoGateway demoSetup .widening).db.snapshots.rows.length = 0 := by
  decide +kernel

end A2AGateway
