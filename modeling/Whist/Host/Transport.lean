import Whist.Foundation.Channel
import Whist.Host.Gpus

/-! # The transport requests

The map of `httpserver.go` from mandelboxes to the channels on which `FinishMandelboxSpinUp` gets their requests.  Requests
and channels are named by their places in lists.
-/
namespace Whist.Host
open Channel

structure HostPorts where
  hostPortForTCP32261 : UInt16
  hostPortForTCP32262 : UInt16
  hostPortForUDP32263 : UInt16
  hostPortForTCP32273 : UInt16
deriving DecidableEq

structure JSONTransportRequestResult where
  ports : HostPorts
  aesKey : String
deriving DecidableEq

/-- What `handleJSONTransportRequest` does next. -/
inductive HandlerPC where
  | lock
  | send
  | close
  | returned
deriving DecidableEq

structure JSONTransportRequest where
  mandelboxID : MandelboxID
  handler : HandlerPC
  results : List JSONTransportRequestResult
deriving DecidableEq

/-- A channel and the mandelbox for which it was made.  It is late if the entry of the mandelbox
was reset before, when it had been used for a request. -/
structure RequestChan where
  mandelboxID : MandelboxID
  late : Bool
  chan : Chan ℕ 1

/-- `accepted` are the requests that were sent through a channel, in this order, and `dropped` the
mandelboxes whose entry was reset after that. -/
structure Transport where
  requests : List JSONTransportRequest
  chans : List RequestChan
  transportRequestMap : MandelboxID → Option ℕ
  transportMapLock : Option ℕ
  accepted : List ℕ
  dropped : List MandelboxID

namespace Transport

def empty : Transport where
  requests := []
  chans := []
  transportRequestMap := fun _ => none
  transportMapLock := none
  accepted := []
  dropped := []

def request (t : Transport) (id : MandelboxID) : Transport :=
  { t with requests := t.requests ++ [⟨id,.lock,[]⟩] }

def make (t : Transport) (id : MandelboxID) : Transport :=
  { t with
    chans := t.chans ++ [⟨id,id ∈ t.dropped,.make⟩]
    transportRequestMap := Function.update t.transportRequestMap id (some t.chans.length) }

def setHandler (t : Transport) (i : ℕ) (r : JSONTransportRequest) (pc : HandlerPC) : Transport :=
  { t with requests := t.requests.set i { r with handler := pc } }

def setChan (t : Transport) (a : ℕ) (c : RequestChan) (chan : Chan ℕ 1) : Transport :=
  { t with chans := t.chans.set a { c with chan := chan } }

def entry (t : Transport) (id : MandelboxID) : Except Fault (ℕ × RequestChan) :=
  match t.transportRequestMap id with
  | none => .error .blocked
  | some a =>
    match t.chans[a]? with
    | none => .error .blocked
    | some c => .ok (a,c)

/-- The next step of `handleJSONTransportRequest`, which holds the lock while it sends and closes. -/
def handlerAt (t : Transport) (i : ℕ) (r : JSONTransportRequest) : HandlerPC → Except Fault Transport
  | .lock =>
    if t.transportMapLock.isSome then .error .blocked
    else if (t.transportRequestMap r.mandelboxID).isNone then
      .ok { (t.make r.mandelboxID).setHandler i r .send with transportMapLock := some i }
    else .ok { t.setHandler i r .send with transportMapLock := some i }
  | .send =>
    match t.entry r.mandelboxID with
    | .error e => .error e
    | .ok (a,c) =>
      match c.chan.send i with
      | .error e => .error e
      | .ok chan => .ok { (t.setChan a c chan).setHandler i r .close with accepted := t.accepted ++ [i] }
  | .close =>
    match t.entry r.mandelboxID with
    | .error e => .error e
    | .ok (a,c) =>
      match c.chan.close with
      | .error e => .error e
      | .ok chan => .ok { (t.setChan a c chan).setHandler i r .returned with transportMapLock := none }
  | .returned => .error .blocked

def handleJSONTransportRequest (t : Transport) (i : ℕ) : Except Fault Transport :=
  match t.requests[i]? with
  | none => .error .blocked
  | some r => t.handlerAt i r r.handler

def getJSONTransportRequestChannel (t : Transport) (id : MandelboxID) : Except Fault (ℕ × Transport) :=
  if t.transportMapLock.isSome then .error .blocked
  else
    match t.transportRequestMap id with
    | some a => .ok (a,t)
    | none => .ok (t.chans.length,t.make id)

def receive (t : Transport) (a : ℕ) : Except Fault (Option ℕ × Transport) :=
  match t.chans[a]? with
  | none => .error .blocked
  | some c =>
    match c.chan.receive with
    | .error e => .error e
    | .ok (r,chan) => .ok (r,t.setChan a c chan)

def isFor (t : Transport) (id : MandelboxID) (i : ℕ) : Bool :=
  match t.requests[i]? with
  | none => false
  | some r => r.mandelboxID = id

def reset (t : Transport) (id : MandelboxID) : Except Fault Transport :=
  if t.transportMapLock.isSome then .error .blocked
  else
    .ok { t with
      transportRequestMap := Function.update t.transportRequestMap id none
      dropped := if t.accepted.any (t.isFor id) then id :: t.dropped else t.dropped }

def returnResult (t : Transport) (i : ℕ) (result : JSONTransportRequestResult) : Transport :=
  match t.requests[i]? with
  | none => t
  | some r => { t with requests := t.requests.set i { r with results := r.results ++ [result] } }

def first (t : Transport) (id : MandelboxID) : Option ℕ := t.accepted.find? (t.isFor id)

end Transport

end Whist.Host
