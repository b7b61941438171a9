import ChoonzMoba.Library.Loop
import ChoonzMoba.Library.System
import ChoonzMoba.Library.Machine
import ChoonzMoba.Library.LittleEndian
import ChoonzMoba.Library.FirstDifference
import ChoonzMoba.Core.Handle
import ChoonzMoba.Core.Arena
import ChoonzMoba.Library.Outcome
import ChoonzMoba.Core.ArenaKeeps
import ChoonzMoba.Core.ArenaBudget
import ChoonzMoba.Math.Fix
import ChoonzMoba.Math.Rng
import ChoonzMoba.Sim.Entity
import ChoonzMoba.Sim.ComponentPool
import ChoonzMoba.Sim.ComponentPoolSpec
import ChoonzMoba.Sim.Components
import ChoonzMoba.Sim.Events
import ChoonzMoba.Sim.World
import ChoonzMoba.Sim.Init
import ChoonzMoba.Sim.Systems
import ChoonzMoba.Sim.Abstract
import ChoonzMoba.Sim.Invariant
import ChoonzMoba.Sim.SystemsSpec
import ChoonzMoba.Sim.FlushSpec
import ChoonzMoba.Sim.TickSpec
import ChoonzMoba.Sim.Operations
import ChoonzMoba.Sim.Legal
import ChoonzMoba.Sim.Runs
import ChoonzMoba.Sim.InitSpec
import ChoonzMoba.Sim.EntityRun
import ChoonzMoba.Sim.EventsRun
import ChoonzMoba.Sim.TypedPoolRun
import ChoonzMoba.Sim.ComponentArrays
import ChoonzMoba.Sim.ComponentArraysSpec
import ChoonzMoba.Sim.ComponentPoolBounds
import ChoonzMoba.Sim.ComponentPoolRun
import ChoonzMoba.Sim.InitTotal
import ChoonzMoba.Sim.SimHash
import ChoonzMoba.Sim.Canonical
import ChoonzMoba.Sim.Refinement
import ChoonzMoba.Sim.Safety
import ChoonzMoba.Sim.StateElements
import ChoonzMoba.Sim.DiffSpec
import ChoonzMoba.Sim.Bisimulation
import ChoonzMoba.Library.Codec
import ChoonzMoba.Library.Slots
import ChoonzMoba.Library.Chain
import ChoonzMoba.Library.DeferredSlots
import ChoonzMoba.Library.RobinHood
import ChoonzMoba.Core.HashMap
import ChoonzMoba.Core.HashMapTable
import ChoonzMoba.Core.HashMapSpec
import ChoonzMoba.Core.HashMapRun
import ChoonzMoba.Core.HandlePool
import ChoonzMoba.Core.HandlePoolSpec
import ChoonzMoba.Core.HandlePoolRun
import ChoonzMoba.Serialize.ByteIo
import ChoonzMoba.Serialize.ByteIoSpec
import ChoonzMoba.Serialize.ByteIoTyped
import ChoonzMoba.Serialize.ByteIoMemory
import ChoonzMoba.Sim.Replay
import ChoonzMoba.Sim.ReplayCodec
import ChoonzMoba.Sim.ReplayAtomic
import ChoonzMoba.Sim.ReplayFile
import ChoonzMoba.Sim.ReplayRun
import ChoonzMoba.Tools.ReplayTool
import ChoonzMoba.Tools.ReplayToolSpec
import ChoonzMoba.Assets.AssetId
import ChoonzMoba.Assets.AssetPath
import ChoonzMoba.Assets.AssetPathSpec
import ChoonzMoba.Assets.AssetIdSpec
import ChoonzMoba.Assets.Mba
import ChoonzMoba.Assets.MbaSpec
import ChoonzMoba.Assets.Tga
import ChoonzMoba.Assets.TgaSpec
import ChoonzMoba.Assets.Wav
import ChoonzMoba.Assets.WavSpec
import ChoonzMoba.Assets.AssetMap
import ChoonzMoba.Assets.Registry
import ChoonzMoba.Assets.RegistryLoad
import ChoonzMoba.Assets.RegistryInv
import ChoonzMoba.Assets.RegistryCommit
import ChoonzMoba.Assets.RegistryAcquire
import ChoonzMoba.Assets.RegistryRetire
import ChoonzMoba.Assets.RegistryRun
import ChoonzMoba.Assets.RegistryBudget
import ChoonzMoba.Assets.RegistryFailure
import ChoonzMoba.Assets.RegistryTextures
import ChoonzMoba.Assets.RegistryChange
import ChoonzMoba.Assets.RegistryHandles
import ChoonzMoba.Assets.RegistryMeaning
import ChoonzMoba.Render.HandleTable
import ChoonzMoba.Render.HandleTableSpec
import ChoonzMoba.Render.HandleTableRun
import ChoonzMoba.Render.HandleTableWrap
import ChoonzMoba.Library.Comparator
import ChoonzMoba.Library.Runs
import ChoonzMoba.Render.Batch
import ChoonzMoba.Render.BatchSpec
import ChoonzMoba.Library.Riff
import ChoonzMoba.Assets.WavGrammar
import ChoonzMoba.Assets.WavFile
import ChoonzMoba.Library.Blocks
import ChoonzMoba.Library.RunLength
import ChoonzMoba.Assets.TgaImage
import ChoonzMoba.Assets.TgaPackets
import ChoonzMoba.Assets.TgaFile
import ChoonzMoba.Library.FullPeriod
import ChoonzMoba.Library.Mixing
import ChoonzMoba.Library.DigitSqrt
import ChoonzMoba.Math.RngUniform
import ChoonzMoba.Math.RngPeriod
import ChoonzMoba.Math.FixSqrt
import ChoonzMoba.Library.Checked
import ChoonzMoba.Math.FVec
import ChoonzMoba.Math.FixLerp
import ChoonzMoba.Library.Interpolation
import ChoonzMoba.Math.FixSin
import ChoonzMoba.Math.FixSinSpec
import ChoonzMoba.Library.Regions
import ChoonzMoba.Core.ArenaRun
import ChoonzMoba.Core.Pool
import ChoonzMoba.Core.PoolRun
import ChoonzMoba.Library.Records
import ChoonzMoba.Game.Present
import ChoonzMoba.Game.PresentSpec
import ChoonzMoba.Game.PresentRun
import ChoonzMoba.Library.Attempt
import ChoonzMoba.Library.Objects
import ChoonzMoba.Core.AllocatorSpec
import ChoonzMoba.Core.Str
import ChoonzMoba.Core.StrSpec
import ChoonzMoba.Platform.FileWrite
import ChoonzMoba.Library.Ledger
import ChoonzMoba.Render.Vk
import ChoonzMoba.Library.Guarded
import ChoonzMoba.Render.VkSpec
import ChoonzMoba.Render.Renderer
import ChoonzMoba.Render.RendererResources
import ChoonzMoba.Render.RendererFrame
import ChoonzMoba.Render.HandlePhases
import ChoonzMoba.Render.RendererTargets
import ChoonzMoba.Render.RendererScene
import ChoonzMoba.Render.RendererSlots
import ChoonzMoba.Render.RendererInv
import ChoonzMoba.Render.RendererCalls
import ChoonzMoba.Render.RendererMaterials
import ChoonzMoba.Render.RendererPrepare
import ChoonzMoba.Render.RendererCollect
import ChoonzMoba.Render.RendererDraw
import ChoonzMoba.Render.RendererFrames
import ChoonzMoba.Render.RendererLifetime
import ChoonzMoba.Render.RendererCreate
import ChoonzMoba.Render.RendererRun
import ChoonzMoba.Library.FileTree
import ChoonzMoba.Platform.RootedRead
import ChoonzMoba.Platform.RootedPath
import ChoonzMoba.Platform.RootedStep
import ChoonzMoba.Platform.RootedOwns
import ChoonzMoba.Platform.RootedConfined
import ChoonzMoba.Platform.RootedExact
import ChoonzMoba.Platform.RootedRun
import ChoonzMoba.Tools.Cooker
import ChoonzMoba.Tools.CookerSpec
import ChoonzMoba.Tools.CookerBakes
import ChoonzMoba.Library.LastWord
import ChoonzMoba.Platform.Input
import ChoonzMoba.Platform.InputSpec
import ChoonzMoba.Platform.InputLog
import ChoonzMoba.Platform.InputRun
import ChoonzMoba.Sim.Oracle
import ChoonzMoba.Tools.ReplayOracle
import ChoonzMoba.Tools.ReplayInspect
