import Whist.Foundation.Binary64
import Whist.Scaling.Subscriptions

/-! # Capacities

The tables of `default/config.go`, the computations of `helpers/capacity.go` and
`helpers/sanitize.go`, and the values that the service reads from its environment and
from its configuration.
-/
namespace Whist.Scaling

def maxMandelboxesPerGPU : ℤ := 3

def vCPUsPerMandelbox : ℤ := 4

def defaultInstanceBuffer : ℤ := 1

def instanceTypeToGPUNum : List (String × ℤ) :=
  [("g4dn.xlarge",1), ("g4dn.2xlarge",1), ("g4dn.4xlarge",1), ("g4dn.8xlarge",1),
    ("g4dn.16xlarge",1), ("g4dn.12xlarge",4)]

def instanceTypeToVCPUNum : List (String × ℤ) :=
  [("g4dn.xlarge",4), ("g4dn.2xlarge",8), ("g4dn.4xlarge",16), ("g4dn.8xlarge",32),
    ("g4dn.16xlarge",64), ("g4dn.12xlarge",48)]

def generateInstanceCapacityMap (instanceToGPUMap instanceToVCPUMap : List (String × ℤ)) :
    List (String × ℤ) :=
  instanceToGPUMap.filterMap fun gpu =>
    (instanceToVCPUMap.lookup gpu.1).map fun vcpuNum =>
      (gpu.1,min (gpu.2 * maxMandelboxesPerGPU) (vcpuNum / vCPUsPerMandelbox))

/-- A type that is not in the map reads as zero. -/
def instanceCapacity (instanceType : String) : ℤ :=
  ((generateInstanceCapacityMap instanceTypeToGPUNum instanceTypeToVCPUNum).lookup instanceType).getD 0

def assumedInstanceType : String := "g4dn.2xlarge"

theorem instanceCapacity_assumedInstanceType : instanceCapacity assumedInstanceType = 2 := by
  decide +kernel

def computeRealMandelboxCapacity (imageID : String) (activeInstances : List Instance) : ℤ :=
  ((activeInstances.filter fun i => i.imageID = imageID).map Instance.remainingCapacity).sum

def computeExpectedMandelboxCapacity (imageID : String) (activeInstances startingInstances : List Instance) :
    ℤ :=
  ((startingInstances.filter fun i => i.imageID = imageID).map Instance.remainingCapacity).sum +
    computeRealMandelboxCapacity imageID activeInstances

def computeInstancesToScale (desiredMandelboxes currentCapacity instanceCapacity : ℤ) : ℤ :=
  if instanceCapacity ≤ 0 then 0
  else
    let desiredCapacity := desiredMandelboxes - currentCapacity
    ⌈(Binary64.nearest desiredCapacity / Binary64.nearest instanceCapacity).val⌉

inductive AppEnvironment where
  | localDev
  | localDevWithDB
  | dev
  | staging
  | prod
deriving DecidableEq, Repr

/-- What the service reads from its environment and its configuration, and the functions
of Go packages it calls on texts: `compareVersions request frontend` says whether the
first version is the lesser one and is `none` where one of them does not parse, and
`parseCIDR` gives the address of a CIDR text. -/
structure Settings where
  environment : AppEnvironment
  runningInCI : Bool
  gitCommit : String
  enabledRegions : List String
  mandelboxLimitPerUser : ℤ
  frontendVersion : String
  targetFreeMandelboxes : String → ℤ
  compareVersions : String → String → Option Bool
  parseCIDR : String → Except String String

namespace Settings

def isLocalEnv (cfg : Settings) : Bool :=
  cfg.environment = .localDev || cfg.environment = .localDevWithDB

def spinsUpFakeInstances (cfg : Settings) : Bool :=
  cfg.isLocalEnv && !cfg.runningInCI

def commitHash (cfg : Settings) (version : FrontendVersion) : String :=
  match cfg.environment with
  | .dev => version.devCommitHash
  | .staging => version.stagingCommitHash
  | .prod => version.prodCommitHash
  | _ => version.devCommitHash

end Settings

def isLocalPartChar (c : Char) : Bool := c.isAlphanum || c ∈ ['_', '.', '+', '-']

def isDomainChar (c : Char) : Bool := c.isAlphanum || c = '-'

/-- The expression `^[a-zA-Z0-9_.+-]+@[a-zA-Z0-9-]+\.[a-zA-Z0-9-.]+$`. -/
def matchesEmail (email : List Char) : Bool :=
  let localPart := email.takeWhile isLocalPartChar
  match email.dropWhile isLocalPartChar with
  | '@' :: domain =>
    let label := domain.takeWhile isDomainChar
    match domain.dropWhile isDomainChar with
    | '.' :: rest =>
      !localPart.isEmpty && !label.isEmpty && !rest.isEmpty && rest.all fun c => isDomainChar c || c = '.'
    | _ => false
  | _ => false

def sanitizeEmail (email : String) : String :=
  if matchesEmail email.toList then email else ""

end Whist.Scaling
