namespace QueryLease.Engine

structure Config where
  bufferPoolSize : UInt64 := 0
  maxThreads : UInt64 := 0
  compression : Bool := true
  readOnly : Bool := false
  maxSize : UInt64 := 0
  autoCheckpoint : Bool := true
  checkpointThreshold : UInt64 := 0
  deriving DecidableEq

namespace Config

def usual : Config where
  bufferPoolSize := 0x10000000
  maxThreads := 8
  maxSize := 0x80000000000
  checkpointThreshold := 0x1000000

def choose (wanted base : UInt64) : UInt64 := if wanted = 0 then base else wanted

def overlay (c base : Config) : Config where
  bufferPoolSize := choose c.bufferPoolSize base.bufferPoolSize
  maxThreads := choose c.maxThreads base.maxThreads
  compression := c.compression
  readOnly := c.readOnly
  maxSize := choose c.maxSize base.maxSize
  autoCheckpoint := c.autoCheckpoint
  checkpointThreshold := choose c.checkpointThreshold base.checkpointThreshold

def text (c : Config) : String :=
  ",".intercalate [toString c.bufferPoolSize, toString c.maxThreads, toString c.compression,
    toString c.readOnly, toString c.maxSize, toString c.autoCheckpoint,
    toString c.checkpointThreshold]

end Config

end QueryLease.Engine
