import Lumos.Library.Loop
import Lumos.Library.ParentLinks
import Lumos.Library.SiblingRow
import Lumos.Library.OrderedForest
import Lumos.Library.FixedArray
import Lumos.Library.OrderedPairs
import Lumos.Library.Subdivision
import Lumos.Library.Runs
import Lumos.Library.RingBuffer
import Lumos.Library.FairRun
import Lumos.Library.Archive
import Lumos.Library.SparseSet
import Lumos.Library.Caches
import Lumos.Library.Exchange
import Lumos.Library.GreedyCut
import Lumos.Library.Writes
import Lumos.Library.MaximalRuns
import Lumos.Maths.Matrix4
import Lumos.Maths.Transform
import Lumos.Maths.BoundingBox
import Lumos.Maths.FloatArithmetic
import Lumos.Maths.FloatGeometry
import Lumos.Maths.ExactArithmetic
import Lumos.Maths.Projection
import Lumos.AI.PathGraph
import Lumos.AI.AStar
import Lumos.AI.Corridor
import Lumos.AI.AStarPath
import Lumos.AI.AStarFrontier
import Lumos.AI.AStarOptimal
import Lumos.Scene.Registry
import Lumos.Scene.Hierarchy
import Lumos.Scene.HierarchyForest
import Lumos.Scene.HierarchyHandlers
import Lumos.Scene.SetParent
import Lumos.Scene.HierarchyRuns
import Lumos.Scene.SceneGraph
import Lumos.Scene.WorldMatrices
import Lumos.Scene.SceneManager
import Lumos.Scene.Components
import Lumos.Scene.ComponentArchive
import Lumos.Scene.SceneArchive
import Lumos.Scene.DeserialiseFailure
import Lumos.Scene.ComponentRoundTrip
import Lumos.Scene.RestorableComponents
import Lumos.Scene.SceneRoundTrip
import Lumos.Physics.Broadphase
import Lumos.Physics.OctreeBroadphase
import Lumos.Physics.OctreeSubdivision
import Lumos.Physics.OctreeBounds
import Lumos.Physics.OctreeCompleteness
import Lumos.Physics.NarrowPhase
import Lumos.Physics.OctreeOnce
import Lumos.Physics.OctreeHistory
import Lumos.Physics.CollisionShape
import Lumos.Physics.CollisionDetection
import Lumos.Physics.CollisionHistory
import Lumos.Library.RunningBest
import Lumos.Library.SeparatingAxis
import Lumos.Maths.RealArithmetic
import Lumos.Physics.CollisionWrites
import Lumos.Physics.Solids
import Lumos.Physics.SeparationSoundness
import Lumos.Physics.Facets
import Lumos.Physics.SeparatingAxisTheorem
import Lumos.Physics.SeparationCompleteness
import Lumos.Physics.RigidBody3D
import Lumos.Physics.RigidBodyUpdate
import Lumos.Physics.RigidBodyCaches
import Lumos.Physics.ConstraintSolver
import Lumos.Physics.MomentumConservation
import Lumos.Core.Reference
import Lumos.Core.ReferenceCounts
import Lumos.Core.ReferenceRuns
import Lumos.Core.WeakReference
import Lumos.Core.JobDispatch
import Lumos.Core.JobSystem
import Lumos.Core.JobSystemRuns
import Lumos.Core.JobSystemProgress
import Lumos.Core.JobSystemWait
import Lumos.Core.StringUtilities
import Lumos.Core.VFS
import Lumos.Utilities.IniFile
import Lumos.Graphics.Camera
import Lumos.Graphics.Renderer2D
import Lumos.Graphics.BatchItems
import Lumos.Graphics.DescriptorSets
import Lumos.Graphics.BatchRuns
import Lumos.Graphics.Frames
import Lumos.Graphics.SpriteBatches
import Lumos.Graphics.ObjectCache
import Lumos.Core.ReferenceHandles
import Lumos.Utilities.AssetManager
import Lumos.Utilities.ResourceRuns
import Lumos.Maths.Decomposition
import Lumos.Graphics.GLTFNodes
import Lumos.Library.Bytes
import Lumos.Graphics.GLTFMesh
import Lumos.Graphics.GLTFDecoding
import Lumos.Graphics.GLTFPrimitives
import Lumos.Library.Regions
import Lumos.Platform.DescriptorInfos
import Lumos.Platform.VKDescriptorSet
import Lumos.Library.Slots
import Lumos.Platform.GLDescriptorSet
import Lumos.Audio.WavLoader
import Lumos.Audio.WavWalk
import Lumos.Audio.WavFiles
import Lumos.Utilities.LoadImage
import Lumos.Library.Lanes
import Lumos.Maths.Matrix3x4
import Lumos.Maths.SSE
import Lumos.Library.Latch
import Lumos.Platform.GLShader
import Lumos.Physics.IntegrationTypes
import Lumos.Physics.DistanceConstraints
import Lumos.Physics.ContactImpulses
import Lumos.Library.SwapRemove
import Lumos.Physics.ManifoldContacts
import Lumos.Library.BoxImage
import Lumos.Maths.TransformedBox
import Lumos.Physics.BodyBounds
import Lumos.Physics.FirstChecks
import Lumos.Physics.CollisionOrder
import Lumos.Physics.PenetrationDepth
import Lumos.Library.ClosedPolygon
import Lumos.Library.DoubleBuffer
import Lumos.Physics.PolygonClipping
import Lumos.Physics.ClippingResult
import Lumos.Maths.UnitQuaternions
import Lumos.Physics.WeldConstraint
import Lumos.Core.PathAccesses
import Lumos.Graphics.Terrain
import Lumos.Library.TriangleWave
import Lumos.Graphics.AnimatedSprite
import Lumos.Library.Packing
import Lumos.Maths.AreaAllocator
import Lumos.Maths.AreaGrowth
import Lumos.Maths.AreaPacking
import Lumos.Maths.AreaCleanup
import Lumos.Library.PairedRows
import Lumos.Physics.HullMesh
import Lumos.Physics.HullIncidence
import Lumos.Graphics.LineRenderer
import Lumos.Graphics.DebugRenderer
import Lumos.Maths.FrustumTests
import Lumos.Maths.FrustumPlanes
import Lumos.Maths.RayHits
import Lumos.Maths.RayBox
import Lumos.Maths.RaySphere
import Lumos.Maths.RayMeshes
import Lumos.Maths.Colour
import Lumos.Library.FreeLists
import Lumos.Core.BinAllocator
import Lumos.Core.BinAllocatorBlocks
import Lumos.Core.BinAllocatorRuns
import Lumos.Graphics.OBJLoader
import Lumos.Library.FirstIndex
import Lumos.Maths.Polyhedron
import Lumos.Library.FloatRounding
import Lumos.Library.ClosedSurface
import Lumos.Library.Revolution
import Lumos.Graphics.MeshFactory
import Lumos.Graphics.MeshRows
import Lumos.Graphics.MeshSurfaces
import Lumos.Graphics.CapsuleSurface
import Lumos.Graphics.CylinderSurface
import Lumos.Graphics.SphereSurface
import Lumos.Graphics.SphereSeams
import Lumos.Physics.ContactGeneration
import Lumos.Physics.ContactRoom
import Lumos.Core.ThreadSafeRingBuffer
import Lumos.Maths.Inverses
import Lumos.Maths.Placement
import Lumos.Maths.ClipSpace
import Lumos.Library.Grouping
import Lumos.Platform.VKPipeline
import Lumos.Graphics.GLTFMaterials
import Lumos.Library.HandleLedger
import Lumos.Platform.VKTextureDepthArray
import Lumos.Library.EndToEnd
import Lumos.Platform.VKTextureCube
import Lumos.Platform.GLShaderParse
import Lumos.Platform.GLShaderScan
import Lumos.Platform.GLShaderUniforms
import Lumos.Platform.GLShaderLayout
import Lumos.Core.StringLoops
import Lumos.Library.FixedStep
import Lumos.Library.BinarySemaphores
import Lumos.Physics.PhysicsEngine
import Lumos.Physics.RestTest
import Lumos.Platform.VKRenderer
import Lumos.Core.Application
import Lumos.Maths.ProjectedFrustum
import Lumos.Graphics.CameraView
import Lumos.Graphics.DeferredOffScreenRenderer
import Lumos.Maths.LookRotation
